import Toolwright.Block.Syntax
import Toolwright.Host.Calling
import Toolwright.Proofs.Renaming.Literal

/-!
# Links

Two runs of the same blocks in two worlds, each on an object of its own. A link says which cells,
functions and marks of one run stand for which of the other, and which helpers the classes of both
objects hold. The worlds stay linked while the runs go on.
-/

/-!
## Uses

What the body of a block asks of its context and of the session: the attributes that it names, the
attributes of the class, the name of the class, and session steps.
-/

namespace Toolwright

set_option autoImplicit false

inductive Use where
  /-- Reads, calls or looks for an attribute of the context. -/
  | asked (name : String)
  /-- Calls an attribute of the context without arguments. -/
  | called (name : String)
  /-- Sets an attribute of the context. -/
  | written (name : String)
  /-- Calls an attribute of the class of the context. -/
  | ofClass (name : String)
  | className
  | step
  deriving DecidableEq

mutual

def Node.uses : Node → List Use
  | .lit _ => []
  | .var _ => []
  | .list items => Node.itemUses items
  | .tuple items => Node.itemUses items
  | .dict rows => Node.rowUses rows
  | .cat items => Node.itemUses items
  | .add a b => a.uses ++ b.uses
  | .cond test whenTrue whenFalse => test.uses ++ (whenTrue.uses ++ whenFalse.uses)
  | .seq items => Node.itemUses items
  | .helper name args named =>
    (if args.isEmpty && named.isEmpty then .called name else .asked name) ::
      (Node.itemUses args ++ Node.namedUses named)
  | .classHelper name args named => .ofClass name :: (Node.itemUses args ++ Node.namedUses named)
  | .raise _ _ => []
  | .setAttr name value => .written name :: value.uses
  | .getAttr name _ => [.asked name]
  | .hasAttr name => [.asked name]
  | .className => [.className]
  | .perform _ => [.step]

def Node.itemUses : List Node → List Use
  | [] => []
  | item :: items => item.uses ++ Node.itemUses items

def Node.rowUses : List (Node × Node) → List Use
  | [] => []
  | (k, v) :: rows => k.uses ++ (v.uses ++ Node.rowUses rows)

def Node.namedUses : List (String × Node) → List Use
  | [] => []
  | (_, v) :: rows => v.uses ++ Node.namedUses rows

end

def Block.uses (b : Block) : List Use := b.body.uses

namespace Node

theorem mem_itemUses {items : List Node} {item : Node} {u : Use} (hi : item ∈ items)
    (hu : u ∈ item.uses) : u ∈ itemUses items := by
  induction items with
  | nil => exact absurd hi List.not_mem_nil
  | cons first items ih =>
    rw [itemUses]
    rcases List.mem_cons.mp hi with rfl | hi
    · exact List.mem_append_left _ hu
    · exact List.mem_append_right _ (ih hi)

theorem mem_rowUses {rows : List (Node × Node)} {row : Node × Node} {u : Use} (hr : row ∈ rows)
    (hu : u ∈ row.1.uses ∨ u ∈ row.2.uses) : u ∈ rowUses rows := by
  induction rows with
  | nil => exact absurd hr List.not_mem_nil
  | cons first rows ih =>
    obtain ⟨k, v⟩ := first
    simp only [rowUses, List.mem_append]
    rcases List.mem_cons.mp hr with rfl | hr
    · rcases hu with hu | hu
      · exact .inl hu
      · exact .inr (.inl hu)
    · exact .inr (.inr (ih hr))

theorem mem_namedUses {rows : List (String × Node)} {row : String × Node} {u : Use}
    (hr : row ∈ rows) (hu : u ∈ row.2.uses) : u ∈ namedUses rows := by
  induction rows with
  | nil => exact absurd hr List.not_mem_nil
  | cons first rows ih =>
    obtain ⟨name, v⟩ := first
    simp only [namedUses, List.mem_append]
    rcases List.mem_cons.mp hr with rfl | hr
    · exact .inl hu
    · exact .inr (ih hr)

end Node

end Toolwright

/-!
## Running computations

What a computation gives from a world, and the world after it, by the way it is written.
-/

namespace Toolwright.Run

set_option autoImplicit false

variable {α β : Type}

/-- The result of a computation and the world after it. -/
def exec (r : Run α) (w : World) : Except Fault α × World := r.run w

theorem exec_pure (a : α) (w : World) : exec (pure a) w = (.ok a, w) := rfl

theorem exec_bind (r : Run α) (k : α → Run β) (w : World) :
    exec (r >>= k) w =
      match exec r w with
      | (.ok a, w) => exec (k a) w
      | (.error f, w) => (.error f, w) := by
  unfold exec
  simp only [ExceptT.run, bind, ExceptT.bind, ExceptT.mk, StateT.bind, ExceptT.bindCont]
  cases r w with
  | mk result w => cases result <;> rfl

theorem of_exec_bind {r : Run α} {k : α → Run β} {w u : World} {b : β}
    (h : exec (r >>= k) w = (.ok b, u)) : ∃ a v, exec r w = (.ok a, v) ∧ exec (k a) v = (.ok b, u) := by
  rw [exec_bind] at h
  cases hr : exec r w with
  | mk result v =>
    rw [hr] at h
    cases result with
    | ok a => exact ⟨a, v, rfl, h⟩
    | error f => cases h

theorem exec_bind_cases {r : Run α} {k : α → Run β} {w v : World} {x : Except Fault β}
    (h : exec (r >>= k) w = (x, v)) :
    (∃ f, x = .error f ∧ exec r w = (.error f, v)) ∨
      ∃ a u, exec r w = (.ok a, u) ∧ exec (k a) u = (x, v) := by
  rw [exec_bind] at h
  cases hr : exec r w with
  | mk result u =>
    rw [hr] at h
    cases result with
    | ok a => exact .inr ⟨a, u, rfl, h⟩
    | error f =>
      cases h
      exact .inl ⟨f, rfl, rfl⟩

theorem exec_tryCatch (r : Run α) (handle : Fault → Run α) (w : World) :
    exec (tryCatch r handle) w =
      match exec r w with
      | (.ok a, w) => (.ok a, w)
      | (.error f, w) => exec (handle f) w := by
  unfold exec
  simp only [tryCatch, tryCatchThe, MonadExceptOf.tryCatch, ExceptT.run, ExceptT.tryCatch,
    ExceptT.mk, bind, StateT.bind]
  cases r w with
  | mk result w => cases result <;> rfl

theorem exec_world (w : World) : exec world w = (.ok w, w) := rfl

theorem exec_look (v : Value) (w : World) : exec (look v) w = (.ok (w.followed v), w) := rfl

theorem exec_modify (change : World → World) (w : World) :
    exec (modify change) w = (.ok (), change w) := rfl

theorem exec_lift (r : Except Fault α) (w : World) : exec (lift r) w = (r, w) := by
  cases r <;> rfl

end Toolwright.Run

/-! ## Linked worlds -/

namespace Toolwright

set_option autoImplicit false

/-- One of the two runs: the world that it started in, the object that is its context, and the class
of that object. -/
structure Side where
  world : World
  self : Nat
  cls : Nat

def Side.context (s : Side) : Value := .opaqueRef (.object s.self)

def Side.find? (s : Side) (name : String) : Option (ClassRef × Attribute) :=
  s.world.find? (.made s.cls) name

def routineValue (r : Nat) : Value := .opaqueRef (.routine r)

def Foreign (name : String) : Prop :=
  (∀ k : Kind, k.attribute? name = none) ∧ name ≠ "__wrapped__"

/-- What a block may ask of any value as its context. -/
def AsksApart (settable : Prop) : Use → Prop
  | .asked name | .called name | .ofClass name => Foreign name
  | .written name => Foreign name ∧ settable
  | .className => True
  | .step => False

/-- A name that neither objects have nor what a block without a context has in its place. -/
def Unclaimed (name : String) : Prop :=
  Kind.object.attribute? name = none ∧ Kind.null.attribute? name = none

def AsksAlone : Use → Prop
  | .asked name | .called name | .written name => Unclaimed name
  | .ofClass name => Unclaimed name ∧ Kind.type.attribute? name = none
  | .className => True
  | .step => False

/-- What a method of a class gives without arguments, whatever is there besides the classes. -/
def World.Tells (w : World) (c : Nat) (f : Function) (x : Value) : Prop :=
  ∀ (m : Machine) (v : World), v.classes = w.classes →
    (m.callWith f [World.classValue (.made c)] []).exec v = (.ok x, v)

/-- Under a name two classes have methods of classes that give the same, in which nothing can change. -/
inductive World.TellAlike (w v : World) (a b : Nat) (name : String) : Prop
  | intro {k k' : Nat} {f g : Function} {x : Value}
    (left : w.find? (.made a) name = some (.made k, .ofClass f))
    (right : v.find? (.made b) name = some (.made k', .ofClass g)) (tells : w.Tells a f x)
    (tells' : v.Tells b g x) (closed : x.Closed)

theorem World.Tells.congr {w v : World} (h : v.classes = w.classes) {c : Nat} {f : Function} {x : Value}
    (ht : w.Tells c f x) : v.Tells c f x :=
  fun m u hu => ht m u (hu.trans h)

structure Link where
  ρ : Renaming
  left : Side
  right : Side
  /-- The cell of the attributes of the left context. -/
  store : Nat
  /-- The cells that the left run can get hold of. -/
  cell : Nat → Prop
  /-- The functions that are helpers bound to the context. -/
  bound : Nat → Prop
  /-- The functions that run on a context. -/
  helper : Nat → Prop
  /-- The functions that take no context. -/
  shared : Nat → Prop
  /-- Those of the first that are reached through the class, without the context. -/
  exposed : Nat → Prop
  /-- Whether attributes may be set on anything but the context. -/
  settable : Prop
  /-- Whether the contexts are there already. -/
  present : Prop

/-- What can change while the blocks of a context run: the cells that are owned, new cells and
functions, the marks given out and the log. -/
structure Preserved (owned : Nat → Prop) (settable : Prop) (b w : World) : Prop where
  rest : { w with
    cells := b.cells, handles := b.handles, extras := b.extras, marks := b.marks, log := b.log } = b
  cells : ∀ n, n < b.cells.length → ¬ owned n → w.cells[n]? = b.cells[n]?
  cells_le : b.cells.length ≤ w.cells.length
  handles : ∀ r, r < b.handles.length → w.handles[r]? = b.handles[r]?
  handles_le : b.handles.length ≤ w.handles.length
  marks_le : b.marks ≤ w.marks
  extras : settable ∨ w.extras = b.extras

namespace Link

variable (L : Link)

/-- What both classes find under a name: the same helper. -/
inductive Found : Option (ClassRef × Attribute) → Option (ClassRef × Attribute) → Prop
  | absent : Found none none
  | ofInstance {h h' r : Nat} (hr : L.helper r) :
    Found (some (.made h, .ofObject (.forwards (routineValue r))))
      (some (.made h', .ofObject (.forwards (routineValue (L.ρ.routine r)))))
  | ofClass {h h' r : Nat} (hr : L.shared r) :
    Found (some (.made h, .fixed (routineValue r)))
      (some (.made h', .fixed (routineValue (L.ρ.routine r))))

/-- The methods by which a class takes over what is done with its objects. -/
def specials : List String :=
  ["__getattribute__", "__getattr__", "__setattr__", "__repr__", "__init__"]

def isBuiltIn? : Option (ClassRef × Attribute) → Prop
  | some (.builtIn _, _) => True
  | _ => False

/-- A name that is no attribute of what is built in, as far as contexts are concerned. -/
def Open (name : String) : Prop :=
  L.Found (L.left.find? name) (L.right.find? name) ∧ Unclaimed name

def Permits : Use → Prop
  | .asked name => L.Open name
  | .called name =>
    L.Open name ∨ L.left.world.TellAlike L.right.world L.left.cls L.right.cls name
  | .written name => L.Open name
  | .ofClass name => L.Open name ∧ Kind.type.attribute? name = none ∧
    ∀ h r, L.left.find? name = some (h, .ofObject (.forwards (routineValue r))) → L.exposed r
  | .className =>
    L.left.world.className (.made L.left.cls) = L.right.world.className (.made L.right.cls)
  | .step => False

/-- What a block may ask that is called through the class, of whatever it is given as a context. -/
def PermitsApart : Use → Prop := AsksApart L.settable

structure Contexts : Prop where
  left_object : (L.left.world.objects[L.left.self]?).map (fun o => (o.cls, o.attributes)) =
    some (.made L.left.cls, some L.store)
  right_object : (L.right.world.objects[L.right.self]?).map (fun o => (o.cls, o.attributes)) =
    some (.made L.right.cls, some (L.ρ.cell L.store))
  left_shape : L.left.world.shape? (.made L.left.cls) = none
  right_shape : L.right.world.shape? (.made L.right.cls) = none
  left_above : ClassRef.builtIn .object ∈ L.left.world.lineage (.made L.left.cls)
  right_above : ClassRef.builtIn .object ∈ L.right.world.lineage (.made L.right.cls)
  special : ∀ name ∈ specials, L.Found (L.left.find? name) (L.right.find? name) ∨
    (isBuiltIn? (L.left.find? name) ∧ isBuiltIn? (L.right.find? name))

/-- What holds of the two sides from the start. -/
structure Sound : Prop where
  contexts : L.present → L.Contexts
  helper_present : ∀ r, L.helper r → L.present
  helper : ∀ r, L.helper r → ∃ b : Block,
    L.left.world.handles[r]? = some ⟨.body .ofInstance (.block b), none⟩ ∧
    L.right.world.handles[L.ρ.routine r]? = some ⟨.body .ofInstance (.block b), none⟩ ∧
    (∀ u ∈ b.uses, L.Permits u) ∧ (L.exposed r → ∀ u ∈ b.uses, L.PermitsApart u)
  shared : ∀ r, L.shared r → ∃ b : Block,
    L.left.world.handles[r]? = some ⟨.body .ofClass (.block b), none⟩ ∧
    L.right.world.handles[L.ρ.routine r]? = some ⟨.body .ofClass (.block b), none⟩ ∧
    (∀ u ∈ b.uses, AsksAlone u)
  cell_store : L.cell L.store
  cell_new : ∀ n, L.left.world.cells.length ≤ n → L.cell n
  cell_shift : ∀ j,
    L.ρ.cell (L.left.world.cells.length + j) = L.right.world.cells.length + j
  bound_new : ∀ r, L.left.world.handles.length ≤ r → L.bound r
  logFrom : L.left.world.logFrom = L.right.world.logFrom

def extent (w : World) : Extent where
  cell n := L.cell n ∧ n < w.cells.length
  routine r := (L.shared r ∨ L.bound r) ∧ r < w.handles.length
  marks := w.marks

structure Linked (w v : World) : Prop where
  sound : L.Sound
  left : Preserved (· = L.store) L.settable L.left.world w
  right : Preserved (· = L.ρ.cell L.store) L.settable L.right.world v
  cells : ∀ n, L.cell n → v.cells[L.ρ.cell n]? = (w.cells[n]?).map (Value.rename L.ρ)
  within : ∀ n x, L.cell n → w.cells[n]? = some x → x.Within (L.extent w)
  cell_shift : ∀ j, L.ρ.cell (w.cells.length + j) = v.cells.length + j
  handles : ∀ r, L.bound r → r < w.handles.length → ∃ h, L.helper h ∧
    w.handles[r]? = some ⟨.forwards (routineValue h), some L.left.context⟩ ∧
    v.handles[L.ρ.routine r]? =
      some ⟨.forwards (routineValue (L.ρ.routine h)), some L.right.context⟩
  routine_shift : ∀ j, L.ρ.routine (w.handles.length + j) = v.handles.length + j
  mark_shift : L.ρ.Shifts w.marks v.marks
  extras : (∃ r, L.exposed r) →
    v.extras = w.extras.map (fun row => (row.1.rename L.ρ, L.ρ.cell row.2)) ∧
    ∀ row ∈ w.extras, L.left.world.cells.length ≤ row.2

/-- Faults of both runs: the same, but for the name of the class that lacks an attribute. -/
inductive Faults : Fault → Fault → Prop
  | same (f : Fault) : Faults f f
  | ofObject (name : String) :
    Faults (.noAttribute (.object (L.left.world.className (.made L.left.cls))) name)
      (.noAttribute (.object (L.right.world.className (.made L.right.cls))) name)
  | ofClass (name : String) :
    Faults (.noAttribute (.cls (L.left.world.className (.made L.left.cls))) name)
      (.noAttribute (.cls (L.right.world.className (.made L.right.cls))) name)

/-- Both runs end alike in linked worlds, and nothing that the left one had hold of is lost. -/
inductive Ends {α β : Type} (Q : Extent → α → β → Prop) (e : Extent) :
    Except Fault α × World → Except Fault β × World → Prop
  | ok {a : α} {b : β} {w v : World} (hl : L.Linked w v) (he : e.Below (L.extent w))
    (hq : Q (L.extent w) a b) : Ends Q e (.ok a, w) (.ok b, v)
  | error {f g : Fault} {w v : World} (hl : L.Linked w v) (he : e.Below (L.extent w))
    (hf : L.Faults f g) : Ends Q e (.error f, w) (.error g, v)

def Alike {α β : Type} (Q : Extent → α → β → Prop) (w v : World) (r : Run α) (s : Run β) : Prop :=
  L.Ends Q (L.extent w) (r.exec w) (s.exec v)

/-- Two computations run alike from any linked worlds that have hold of what `e` names. -/
def Agree {α β : Type} (e : Extent) (Q : Extent → α → β → Prop) (r : Run α) (s : Run β) : Prop :=
  ∀ w v, L.Linked w v → e.Below (L.extent w) → L.Alike Q w v r s

theorem Ends.widen {L : Link} {α β : Type} {Q : Extent → α → β → Prop} {e e' : Extent}
    {x : Except Fault α × World} {y : Except Fault β × World} (h : L.Ends Q e' x y)
    (he : e.Below e') : L.Ends Q e x y := by
  cases h with
  | ok hl hb hq => exact .ok hl (he.trans hb) hq
  | error hl hb hf => exact .error hl (he.trans hb) hf

namespace Agree

variable {L : Link} {α β γ δ : Type} {e : Extent}

theorem pure {Q : Extent → α → β → Prop} {a : α} {b : β}
    (h : ∀ e', e.Below e' → Q e' a b) : L.Agree e Q (pure a) (pure b) := by
  intro w v hl he
  exact .ok hl (Extent.Below.refl _) (h _ he)

theorem throw {Q : Extent → α → β → Prop} {f g : Fault} (h : L.Faults f g) :
    L.Agree e Q (throw f) (throw g) := by
  intro w v hl _
  exact .error hl (Extent.Below.refl _) h

theorem weaken {Q : Extent → α → β → Prop} {r : Run α} {s : Run β} {e' : Extent}
    (h : L.Agree e Q r s) (he : e.Below e') : L.Agree e' Q r s :=
  fun w v hl hw => h w v hl (he.trans hw)

theorem bind {Q : Extent → α → β → Prop} {R : Extent → γ → δ → Prop} {r : Run α} {s : Run β}
    {k : α → Run γ} {k' : β → Run δ} (h : L.Agree e Q r s)
    (hk : ∀ e' a b, e.Below e' → Q e' a b → L.Agree e' R (k a) (k' b)) :
    L.Agree e R (r >>= k) (s >>= k') := by
  intro w v hl he
  have h := h w v hl he
  unfold Alike at h ⊢
  rw [Run.exec_bind, Run.exec_bind]
  generalize r.exec w = x at h ⊢
  generalize s.exec v = y at h ⊢
  cases h with
  | ok hl₁ hb hq => exact (hk _ _ _ (he.trans hb) hq _ _ hl₁ (Extent.Below.refl _)).widen hb
  | error hl₁ hb hf => exact .error hl₁ hb hf

theorem mono {Q R : Extent → α → β → Prop} {r : Run α} {s : Run β} (h : L.Agree e Q r s)
    (hqr : ∀ e' a b, e.Below e' → Q e' a b → R e' a b) : L.Agree e R r s := by
  intro w v hl he
  have h := h w v hl he
  unfold Alike at h ⊢
  generalize r.exec w = x at h ⊢
  generalize s.exec v = y at h ⊢
  cases h with
  | ok hl₁ hb hq => exact .ok hl₁ hb (hqr _ _ _ (he.trans hb) hq)
  | error hl₁ hb hf => exact .error hl₁ hb hf

theorem tryCatch {Q : Extent → α → β → Prop} {r : Run α} {s : Run β} {k : Fault → Run α}
    {k' : Fault → Run β} (h : L.Agree e Q r s)
    (hk : ∀ e' f g, e.Below e' → L.Faults f g → L.Agree e' Q (k f) (k' g)) :
    L.Agree e Q (tryCatch r k) (tryCatch s k') := by
  intro w v hl he
  have h := h w v hl he
  unfold Alike at h ⊢
  rw [Run.exec_tryCatch, Run.exec_tryCatch]
  generalize r.exec w = x at h ⊢
  generalize s.exec v = y at h ⊢
  cases h with
  | ok hl₁ hb hq => exact .ok hl₁ hb hq
  | error hl₁ hb hf => exact (hk _ _ _ (he.trans hb) hf _ _ hl₁ (Extent.Below.refl _)).widen hb

theorem world {Q : Extent → α → β → Prop} {k : World → Run α} {k' : World → Run β}
    (h : ∀ w v, L.Linked w v → e.Below (L.extent w) → L.Alike Q w v (k w) (k' v)) :
    L.Agree e Q (Run.world >>= k) (Run.world >>= k') := by
  intro w v hl he
  exact h w v hl he

theorem lift_ok {Q : Extent → α → β → Prop} {a : α} {b : β} (h : ∀ e', e.Below e' → Q e' a b) :
    L.Agree e Q (Run.lift (.ok a)) (Run.lift (.ok b)) := pure h

theorem lift_error {Q : Extent → α → β → Prop} (f : Fault) :
    L.Agree e Q (Run.lift (.error f)) (Run.lift (.error f)) := throw (.same f)

theorem lift_map {Q : Extent → α → β → Prop} (r : Except Fault α) (g : α → β)
    (h : ∀ a, r = .ok a → ∀ e', e.Below e' → Q e' a (g a)) :
    L.Agree e Q (Run.lift r) (Run.lift (r.map g)) := by
  cases r with
  | error f => exact lift_error f
  | ok a => exact lift_ok (h a rfl)

end Agree

/-! ## What results of both runs have to do with each other -/

section Results

variable (L : Link)

def Renamed (e : Extent) (a b : Value) : Prop := a.Within e ∧ b = a.rename L.ρ

def RenamedItems (e : Extent) (xs ys : List Value) : Prop :=
  (∀ x ∈ xs, x.Within e) ∧ ys = xs.map (Value.rename L.ρ)

def RenamedNamed (e : Extent) (named other : Named) : Prop :=
  Named.Within e named ∧ other = Named.rename L.ρ named

def Equal {α : Type} (_ : Extent) (a b : α) : Prop := a = b

end Results

theorem Agree.mapM {L : Link} {α : Type} {e : Extent} {f g : α → Run Value} (xs : List α)
    (h : ∀ x ∈ xs, ∀ e', e.Below e' → L.Agree e' L.Renamed (f x) (g x)) :
    L.Agree e L.RenamedItems (xs.mapM f) (xs.mapM g) := by
  induction xs generalizing e with
  | nil => exact .pure fun _ _ => ⟨by simp, rfl⟩
  | cons x xs ih =>
    rw [List.mapM_cons, List.mapM_cons]
    apply Agree.bind (h x List.mem_cons_self e (Extent.Below.refl e))
    rintro e₁ y _ h₁ ⟨hy, rfl⟩
    apply Agree.bind (ih fun x hx e' he => h x (List.mem_cons_of_mem _ hx) e' (h₁.trans he))
    rintro e₂ ys _ h₂ ⟨hys, rfl⟩
    apply Agree.pure
    intro e₃ h₃
    refine ⟨?_, rfl⟩
    intro z hz
    rcases List.mem_cons.mp hz with rfl | hz
    · exact hy.mono (h₂.trans h₃)
    · exact (hys z hz).mono h₃

theorem Agree.mapM_equal {L : Link} {α β : Type} {e : Extent} {f g : α → Run β} (xs : List α)
    (h : ∀ x ∈ xs, ∀ e', e.Below e' → L.Agree e' Equal (f x) (g x)) :
    L.Agree e Equal (xs.mapM f) (xs.mapM g) := by
  induction xs generalizing e with
  | nil => exact .pure fun _ _ => rfl
  | cons x xs ih =>
    rw [List.mapM_cons, List.mapM_cons]
    apply Agree.bind (h x List.mem_cons_self e (Extent.Below.refl e))
    rintro e₁ y _ h₁ rfl
    apply Agree.bind (ih fun x hx e' he => h x (List.mem_cons_of_mem _ hx) e' (h₁.trans he))
    rintro e₂ ys _ _ rfl
    exact Agree.pure fun _ _ => rfl

end Link

end Toolwright
