import Toolwright.Proofs.Lockstep.Start

/-!
# Contexts of the same blocks

Objects of two classes are alike as contexts if both classes find the same helpers under every name
that the blocks ask for. From there on two runs of a block on such objects go side by side.
-/

namespace Toolwright

set_option autoImplicit false

namespace World

/-- A function that runs a block on the context that it is given. -/
def RunsOn (w : World) (r : Nat) (b : Block) : Prop :=
  w.handles[r]? = some ⟨.body .ofInstance (.block b), none⟩

def RunsAlone (w : World) (r : Nat) (b : Block) : Prop :=
  w.handles[r]? = some ⟨.body .ofClass (.block b), none⟩

def HasHelper (w : World) (c r : Nat) : Prop :=
  ∃ name k, w.find? (.made c) name = some (.made k, .ofObject (.forwards (routineValue r)))

def HasClassHelper (w : World) (c r : Nat) : Prop :=
  ∃ name k, w.find? (.made c) name = some (.made k, .fixed (routineValue r))

/-- What two classes find under a name: a helper and the one that stands for it, or nothing. -/
inductive SameHelper (σ : Nat → Nat) :
    Option (ClassRef × Attribute) → Option (ClassRef × Attribute) → Prop
  | absent : SameHelper σ none none
  | ofInstance {k k' r : Nat} :
    SameHelper σ (some (.made k, .ofObject (.forwards (routineValue r))))
      (some (.made k', .ofObject (.forwards (routineValue (σ r)))))
  | ofClass {k k' r : Nat} :
    SameHelper σ (some (.made k, .fixed (routineValue r)))
      (some (.made k', .fixed (routineValue (σ r))))

/-- A name under which a class of one world and a class of the other have nothing but a helper. -/
structure Free (w v : World) (σ : Nat → Nat) (a b : Nat) (name : String) : Prop where
  helper : SameHelper σ (w.find? (.made a) name) (v.find? (.made b) name)
  object : Kind.object.attribute? name = none
  null : Kind.null.attribute? name = none

theorem TellAlike.congr {w v l r : World} {a b : Nat} {name : String} (h : w.TellAlike v a b name)
    (hl : l.classes = w.classes) (hr : r.classes = v.classes) : l.TellAlike r a b name := by
  obtain ⟨left, right, tells, tells', closed⟩ := h
  exact ⟨(find?_congr hl _ _).trans left, (find?_congr hr _ _).trans right, tells.congr hl,
    tells'.congr hr, closed⟩

def Asks (w v : World) (σ : Nat → Nat) (a b : Nat) (apart : Nat → Prop) : Use → Prop
  | .asked name | .written name => w.Free v σ a b name
  | .called name => w.Free v σ a b name ∨ w.TellAlike v a b name
  | .ofClass name => w.Free v σ a b name ∧ Kind.type.attribute? name = none ∧
    ∀ k r, w.find? (.made a) name = some (k, .ofObject (.forwards (routineValue r))) → apart r
  | .className => w.className (.made a) = v.className (.made b)
  | .step => False

structure OfContexts (w : World) (c : Nat) : Prop where
  shape : w.shape? (.made c) = none
  above : ClassRef.builtIn .object ∈ w.lineage (.made c)

/-- A class of one world and a class of the other have the same helpers for a block and for what it
calls in turn; a function of the one world stands for one of the other. -/
structure SameHelpers (w v : World) (σ : Nat → Nat) (a b : Nat) (block apart : Nat → Prop)
    (settable : Prop) : Prop where
  left : w.OfContexts a
  right : v.OfContexts b
  special : ∀ name ∈ Link.specials,
    SameHelper σ (w.find? (.made a) name) (v.find? (.made b) name) ∨
      (Link.isBuiltIn? (w.find? (.made a) name) ∧ Link.isBuiltIn? (v.find? (.made b) name))
  ofInstance : ∀ r, w.HasHelper a r ∨ block r → ∃ body, w.RunsOn r body ∧ v.RunsOn (σ r) body ∧
    (∀ u ∈ body.uses, w.Asks v σ a b apart u) ∧ (apart r → ∀ u ∈ body.uses, AsksApart settable u)
  ofClass : ∀ r, w.HasClassHelper a r → ∃ body, w.RunsAlone r body ∧ v.RunsAlone (σ r) body ∧
    ∀ u ∈ body.uses, AsksAlone u
  extras : (∃ r, apart r) → w.extras = [] ∧ v.extras = []

end World

variable {w v : World} {σ : Nat → Nat} {a b : Nat} {block apart : Nat → Prop} {settable : Prop}

def World.contextLink (w : World) (a b : Nat) (block apart : Nat → Prop) (settable : Prop)
    (ρ : Renaming) (l r : World) (self self' store : Nat) (cell bound : Nat → Prop) : Link where
  ρ := ρ
  left := ⟨l, self, a⟩
  right := ⟨r, self', b⟩
  store := store
  cell := cell
  bound := bound
  helper r := w.HasHelper a r ∨ block r
  shared := w.HasClassHelper a
  exposed := apart
  settable := settable
  present := True

structure World.Keeps (w l : World) : Prop where
  classes : l.classes = w.classes
  handles : ∀ (r : Nat) (h : Handle), w.handles[r]? = some h → l.handles[r]? = some h

theorem World.Extends.keeps {b w : World} (h : b.Extends w) : b.Keeps w :=
  ⟨h.classes, fun _ _ hr => h.handle hr⟩

theorem Preserved.keeps {owned : Nat → Prop} {s : Prop} {b w : World} (h : Preserved owned s b w) :
    b.Keeps w := by
  refine ⟨h.classes, fun r handle hr => ?_⟩
  rw [h.handles r (List.getElem?_eq_some_iff.mp hr).1, hr]

theorem World.Keeps.trans {b v w : World} (h : b.Keeps v) (h' : v.Keeps w) : b.Keeps w :=
  ⟨h'.classes.trans h.classes, fun r handle hr => h'.handles r handle (h.handles r handle hr)⟩

namespace World.SameHelpers

variable {ρ : Renaming} {l r : World} {self self' store : Nat} {cell bound : Nat → Prop}
  {name : String}

theorem found (h : w.SameHelpers v σ a b block apart settable)
    (hρ : ∀ k, k < w.handles.length → ρ.routine k = σ k) (hl : w.Keeps l) (hr : v.Keeps r)
    (hs : SameHelper σ (w.find? (.made a) name) (v.find? (.made b) name)) :
    (w.contextLink a b block apart settable ρ l r self self' store cell bound).Found
      (l.find? (.made a) name) (r.find? (.made b) name) := by
  rw [World.find?_congr hl.classes, World.find?_congr hr.classes]
  generalize hx : w.find? (.made a) name = x at hs
  generalize v.find? (.made b) name = y at hs
  cases hs with
  | absent => exact .absent
  | @ofInstance k k' n =>
    have hn : w.HasHelper a n ∨ block n := .inl ⟨name, k, hx⟩
    obtain ⟨body, hb, _⟩ := h.ofInstance n hn
    rw [← hρ n (List.getElem?_eq_some_iff.mp hb).1]
    exact .ofInstance hn
  | @ofClass k k' n =>
    have hn : w.HasClassHelper a n := ⟨name, k, hx⟩
    obtain ⟨body, hb, _⟩ := h.ofClass n hn
    rw [← hρ n (List.getElem?_eq_some_iff.mp hb).1]
    exact .ofClass hn

theorem permits (h : w.SameHelpers v σ a b block apart settable)
    (hρ : ∀ k, k < w.handles.length → ρ.routine k = σ k) (hl : w.Keeps l) (hr : v.Keeps r) {u : Use}
    (hu : w.Asks v σ a b apart u) :
    (w.contextLink a b block apart settable ρ l r self self' store cell bound).Permits u := by
  cases u with
  | asked name => exact ⟨h.found hρ hl hr hu.helper, hu.object, hu.null⟩
  | called name =>
    exact hu.imp (fun hf => ⟨h.found hρ hl hr hf.helper, hf.object, hf.null⟩) fun ht =>
      ht.congr hl.classes hr.classes
  | written name => exact ⟨h.found hρ hl hr hu.helper, hu.object, hu.null⟩
  | ofClass name =>
    obtain ⟨hf, ht, hx⟩ := hu
    refine ⟨⟨h.found hρ hl hr hf.helper, hf.object, hf.null⟩, ht, fun k n hk => hx k n ?_⟩
    rw [← World.find?_congr hl.classes]
    exact hk
  | className =>
    show l.className (.made a) = r.className (.made b)
    rw [World.className_congr hl.classes, World.className_congr hr.classes]
    exact hu
  | step => exact hu

theorem sound (h : w.SameHelpers v σ a b block apart settable) (hl : w.Keeps l) (hr : v.Keeps r)
    (hleft : (l.objects[self]?).map (fun o => (o.cls, o.attributes)) = some (.made a, some store))
    (hright : (r.objects[self']?).map (fun o => (o.cls, o.attributes)) =
      some (.made b, some (ρ.cell store)))
    (hρ : ∀ k, k < w.handles.length → ρ.routine k = σ k) (hstore : cell store)
    (hnew : ∀ n, l.cells.length ≤ n → cell n)
    (hshift : ∀ j, ρ.cell (l.cells.length + j) = r.cells.length + j)
    (hbound : ∀ k, l.handles.length ≤ k → bound k) (hlog : l.logFrom = r.logFrom) :
    (w.contextLink a b block apart settable ρ l r self self' store cell bound).Sound where
  contexts _ :=
    { left_object := hleft
      right_object := hright
      left_shape := (World.shape?_congr hl.classes _).trans h.left.shape
      right_shape := (World.shape?_congr hr.classes _).trans h.right.shape
      left_above := (World.lineage_congr hl.classes _).symm ▸ h.left.above
      right_above := (World.lineage_congr hr.classes _).symm ▸ h.right.above
      special := by
        intro name hn
        rcases h.special name hn with hs | hs
        · exact .inl (h.found hρ hl hr hs)
        · right
          rw [← World.find?_congr hl.classes, ← World.find?_congr hr.classes] at hs
          exact hs }
  helper_present _ _ := trivial
  helper n hn := by
    obtain ⟨body, hb, hb', hu, hx⟩ := h.ofInstance n hn
    rw [← hρ n (List.getElem?_eq_some_iff.mp hb).1] at hb'
    exact ⟨body, hl.handles n _ hb, hr.handles _ _ hb',
      fun u hmem => h.permits hρ hl hr (hu u hmem), hx⟩
  shared n hn := by
    obtain ⟨body, hb, hb', hu⟩ := h.ofClass n hn
    rw [← hρ n (List.getElem?_eq_some_iff.mp hb).1] at hb'
    exact ⟨body, hl.handles n _ hb, hr.handles _ _ hb', hu⟩
  cell_store := hstore
  cell_new := hnew
  cell_shift := hshift
  bound_new := hbound
  logFrom := hlog

end World.SameHelpers

end Toolwright
