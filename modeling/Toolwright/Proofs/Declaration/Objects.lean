import Toolwright.Proofs.Declaration.Given
import Toolwright.Proofs.Serving.Answer
import Toolwright.Session.Start

/-!
# Objects of bundled classes

Definitions, parameters, schemas and tables of helpers are objects of bundled classes. What was set
on such an object is read from it, and a record that is made has the fields that it is given.
-/

namespace Toolwright

set_option autoImplicit false

def objectValue (o : Nat) : Value := .opaqueRef (.object o)

namespace World

/-- The bundled classes of definitions and of records are as they were at the start, and containers
have no attributes of their own. -/
structure Bundled (w : World) : Prop where
  classes : ∀ n, 2 ≤ n → n < 9 → w.classes[n]? = Session.start.classes[n]?
  places : ∀ n, Table.find? w.extras (.place (.cell n)) = none

/-- An object of a class, with what was set on it in a cell. -/
structure ObjectAt (w : World) (o n s : Nat) (named : Named) : Prop where
  object : w.objects[o]? = some ⟨.made n, some s, []⟩
  cell : w.cells[s]? = some (.ofRows named)

/-- Under a name a class has nothing, or a plain value. -/
def isPlain (w : World) (c : ClassRef) (name : String) : Bool :=
  match w.find? c name with
  | none | some (.made _, .value _) => true
  | _ => false

/-- A world with a new object on which attributes are set. -/
def withObjectOf (w : World) (n : Nat) (named : Named) : World :=
  { w with
    cells := w.cells ++ [.ofRows named]
    objects := w.objects ++ [⟨.made n, some w.cells.length, []⟩] }

variable {w v : World} {own : Nat → Prop} {o n s : Nat} {named : Named} {name : String} {x : Value}

theorem isPlain_cases {c : ClassRef} (h : w.isPlain c name = true) :
    w.find? c name = none ∨ ∃ k v, w.find? c name = some (.made k, .value v) := by
  unfold isPlain at h
  split at h
  · exact .inl ‹_›
  · exact .inr ⟨_, _, ‹_›⟩
  · cases h

theorem not_made_of_isBuiltIn {c : ClassRef} (h : Machine.isBuiltIn w c name = true) (k : Nat)
    (a : Attribute) : w.find? c name ≠ some (.made k, a) := by
  intro hf
  unfold Machine.isBuiltIn at h
  rw [hf] at h
  cases h

/-! ## Bundled classes -/

theorem Later.bundled (h : w.Later v own) (hb : w.Bundled) : v.Bundled where
  classes n hn hn' := by
    have hc := hb.classes n hn hn'
    have hlt : n < Session.start.classes.length := hn'
    rw [List.getElem?_eq_getElem hlt] at hc ⊢
    exact h.hostClass hc
  places := by
    rw [h.extras]
    exact hb.places

theorem Bundled.find? (hb : w.Bundled) (hn : 2 ≤ n) (hn' : n < 9) (name : String) :
    w.find? (.made n) name = Session.start.find? (.made n) name := by
  have above (u : World) (hu : u.classes[n]? = Session.start.classes[n]?) :
      u.lineage (.made n) = [.made n, .builtIn .object] := by
    unfold World.lineage World.above
    dsimp only
    rw [hu]
    have hall : ∀ n < 9, ClassRef.made n :: (((Session.start.classes[n]?).map (·.lineage)).getD []) =
        [.made n, .builtIn .object] := by decide
    exact hall n hn'
  unfold World.find?
  rw [above w (hb.classes n hn hn'), above Session.start rfl]
  simp only [List.findSome?_cons, List.findSome?_nil, World.own?, hb.classes n hn hn']

theorem Bundled.isPlain (hb : w.Bundled) (hn : 2 ≤ n) (hn' : n < 9)
    (h : Session.start.isPlain (.made n) name = true) : w.isPlain (.made n) name = true := by
  unfold World.isPlain
  rw [hb.find? hn hn']
  exact h

/-- What the bundled classes leave as it is for every object. -/
def untouched : List String := ["__getattribute__", "__getattr__", "__setattr__", "__new__",
  "__bool__", "__len__"]

theorem Bundled.untouched (hb : w.Bundled) (hn : 2 ≤ n) (hn' : n < 9)
    (h : name ∈ World.untouched) (k : Nat) (a : Attribute) :
    w.find? (.made n) name ≠ some (.made k, a) := by
  rw [hb.find? hn hn']
  apply not_made_of_isBuiltIn
  have hall : ∀ n < 9, ∀ name ∈ World.untouched,
      Machine.isBuiltIn Session.start (.made n) name = true := by decide
  exact hall n hn' name h

theorem Bundled.isOpen (hb : w.Bundled) (hn : 2 ≤ n) (hn' : n < 9) :
    w.isOpen (.made n) = true := by
  have hall : ∀ n < 9, ((Session.start.classes[n]?).map (·.isOpen)).getD false = true := by decide
  unfold World.isOpen
  simp only [World.lineage, List.any_cons, hb.classes n hn hn', hall n hn', Bool.true_or]

/-! ## Objects -/

theorem Later.objectAt (h : w.Later v own) (ho : w.ObjectAt o n s named) (hs : ¬ own s) :
    v.ObjectAt o n s named :=
  ⟨h.object ho.object, h.cells s _ hs ho.cell⟩

theorem ObjectAt.classOf (h : w.ObjectAt o n s named) : w.classOf (objectValue o) = .made n := by
  simp only [objectValue, World.classOf, h.object, Option.map_some, Option.getD_some]

theorem ObjectAt.attributeCell? (h : w.ObjectAt o n s named) :
    w.attributeCell? (objectValue o) = some s := by
  simp only [objectValue, World.attributeCell?, h.object, Option.bind_some]

theorem find?_str (named : Named) (name : String) :
    ((named.map fun row => (Value.str row.1, row.2)).find? fun row =>
      Value.same row.1 (.str name)).map (·.2) = Table.find? named name := by
  induction named with
  | nil => rfl
  | cons row named ih =>
    rw [List.map_cons, List.find?_cons, Table.find?_cons, Machine.same_str]
    by_cases h : row.1 = name
    · simp only [h, decide_true, if_true, Option.map_some]
    · simp only [h, decide_false, if_false]
      exact ih

theorem ObjectAt.setAttribute? (h : w.ObjectAt o n s named) (name : String) :
    w.setAttribute? (objectValue o) name = Table.find? named name := by
  unfold World.setAttribute?
  rw [h.attributeCell?, ← find?_str]
  simp only [Option.bind_eq_bind, Option.bind_some, World.cell, h.cell, Option.getD_some,
    Value.ofRows, Value.rows?]
  cases List.find? _ _ <;> rfl

theorem ObjectAt.put (h : w.ObjectAt o n s named) (named' : Named) :
    (w.put s (.ofRows named')).ObjectAt o n s named' :=
  ⟨h.object, List.getElem?_set_self (List.getElem?_eq_some_iff.mp h.cell).1⟩

theorem objectAt_withObjectOf (w : World) (n : Nat) (named : Named) :
    (w.withObjectOf n named).ObjectAt w.objects.length n w.cells.length named :=
  ⟨by simp [withObjectOf], by simp [withObjectOf]⟩

theorem Later.withObjectOf (h : w.Later v own) (n : Nat) (named : Named) :
    w.Later (v.withObjectOf n named) own :=
  (h.newCell (.ofRows named)).newObject _

/-- What was set on an object is shown under the name of a view of it. -/
theorem ObjectAt.shows (h : w.ObjectAt o n s named) (hb : w.Bundled) (hn : 2 ≤ n) (hn' : n < 9)
    {k : Nat} {of : String} (hf : Session.start.find? (.made n) name = some (.made k, .view of))
    (hx : Table.find? named of = some x) : w.Shows o name x where
  shown := ⟨n, k, of, h.classOf, by rw [hb.find? hn hn', hf], (h.setAttribute? of).trans hx⟩
  plain name hname k a := by
    have hcls := h.classOf
    unfold objectValue at hcls
    rw [hcls]
    apply hb.untouched hn hn'
    simp only [List.mem_cons, List.not_mem_nil, or_false] at hname
    rcases hname with rfl | rfl <;> decide

end World

namespace Machine

variable {w : World} {o n s : Nat} {named : Named} {name : String} {x : Value}

theorem exec_askSet (m : Machine) (h : w.ObjectAt o n s named) (hb : w.Bundled) (hn : 2 ≤ n)
    (hn' : n < 9) (hp : Session.start.isPlain (.made n) name = true)
    (hx : Table.find? named name = some x) : (m.ask (objectValue o) name).exec w = (.ok x, w) := by
  have hset := (h.setAttribute? name).trans hx
  have hcls := h.classOf
  have hs (name : String) (hname : name ∈ World.untouched) :
      w.special? (objectValue o) name = none :=
    special?_none hcls (hb.untouched hn hn' hname)
  have accessed : (plainAccess (objectValue o) name).exec w = (.ok (some (.value x)), w) := by
    unfold plainAccess
    rw [Run.exec_bind, Run.exec_world]
    dsimp only
    rw [hcls]
    rcases World.isPlain_cases (hb.isPlain hn hn' hp) with hf | ⟨k, y, hf⟩
    · rw [hf]
      unfold objectValue at hset ⊢
      simp only [hset]
      rfl
    · rw [hf]
      unfold objectValue at hset ⊢
      simp only [hset]
      rfl
  unfold ask reach
  rw [Run.exec_bind, Run.exec_bind, Run.exec_world]
  simp only [hs "__getattribute__" (by decide), hs "__getattr__" (by decide)]
  unfold plainReach
  rw [Run.exec_bind, accessed]
  rfl

theorem exec_assignField (m : Machine) (h : w.ObjectAt o n s named) (hb : w.Bundled) (hn : 2 ≤ n)
    (hn' : n < 9) (hp : Session.start.isPlain (.made n) name = true) (x : Value) :
    (m.assign (objectValue o) name x).exec w =
      (.ok (), w.put s (.ofRows (Table.insert name x named))) := by
  have hs : w.special? (objectValue o) "__setattr__" = none :=
    special?_none h.classOf (hb.untouched hn hn' (by decide))
  have written := exec_plainAssign (x := x) h.object rfl rfl h.cell
    (World.isPlain_cases (hb.isPlain hn hn' hp))
  rw [insertBy_str] at written
  unfold assign
  rw [Run.exec_bind, Run.exec_world]
  simp only [hs]
  exact written

theorem exec_assignFields (m : Machine) (arg : String → Value) (names : List String)
    (h : w.ObjectAt o n s named) (hb : w.Bundled) (hn : 2 ≤ n) (hn' : n < 9)
    (hp : ∀ name ∈ names, Session.start.isPlain (.made n) name = true)
    (hs : ∀ name ∈ names, (arg name).IsShared) (hd : (Table.keys named ++ names).Nodup) :
    (names.forM fun name => do m.assign (objectValue o) name (← Run.share (arg name))).exec w =
      (.ok (), w.put s (.ofRows (named ++ names.map fun name => (name, arg name)))) := by
  induction names generalizing w named with
  | nil =>
    have hcell : w.put s (.ofRows named) = w := by
      obtain ⟨hlt, hx⟩ := List.getElem?_eq_some_iff.mp h.cell
      unfold World.put
      rw [← hx, List.set_getElem_self]
    rw [List.map_nil, List.append_nil, hcell]
    rfl
  | cons name names ih =>
    have hnew : name ∉ Table.keys named := by
      intro hm
      rw [List.nodup_append] at hd
      exact hd.2.2 name hm name List.mem_cons_self rfl
    have hinsert : Table.insert name (arg name) named = named ++ [(name, arg name)] :=
      Table.insert_new hnew
    have hkeys : Table.keys (named ++ [(name, arg name)]) ++ names =
        Table.keys named ++ name :: names := by simp [Table.keys]
    have rest := ih (h.put (Table.insert name (arg name) named)) ⟨hb.classes, hb.places⟩
      (fun name hn => hp name (List.mem_cons_of_mem _ hn))
      (fun name hn => hs name (List.mem_cons_of_mem _ hn)) (by rw [hinsert, hkeys]; exact hd)
    have each (f : String → Run Unit) : (name :: names).forM f = (do f name; names.forM f) := rfl
    rw [each, Run.exec_bind, Run.exec_bind, hs name List.mem_cons_self]
    dsimp only [Run.exec_pure]
    rw [exec_assignField m h hb hn hn' (hp name List.mem_cons_self)]
    dsimp only
    rw [rest, hinsert, List.append_assoc]
    simp only [World.put, List.set_set]
    rfl

/-! ## Records -/

/-- An object of a bundled class is made: it is filled by the method of its class. -/
theorem exec_instantiate (k : Nat) (hb : w.Bundled) (hn : 2 ≤ n) (hn' : n < 9) {f : Function}
    (hf : Session.start.find? (.made n) "__init__" = some (.made n, .ofObject f))
    {args : List Value} {v : World}
    (hcall : ((nested k).call f (objectValue w.objects.length :: args) named).exec
      (w.withObjectOf n []) = (.ok .null, v)) :
    ((nested (k + 1)).invoke (World.classValue (.made n)) args named).exec w =
      (.ok (objectValue w.objects.length), v) := by
  have hobj : (w.withObjectOf n []).ObjectAt w.objects.length n w.cells.length [] :=
    World.objectAt_withObjectOf w n []
  have hmade : (w.withObjectOf n []).Bundled := ⟨hb.classes, hb.places⟩
  have hinit : isBuiltIn w (.made n) "__init__" = false := by
    unfold isBuiltIn
    rw [hb.find? hn hn', hf]
  have hspecial : (w.withObjectOf n []).special? (objectValue w.objects.length) "__init__" =
      some (.function f (some (objectValue w.objects.length))) := by
    unfold World.special?
    dsimp only
    rw [hobj.classOf, hmade.find? hn hn', hf]
    rfl
  have hlineage : ((w.withObjectOf n []).lineage
      ((w.withObjectOf n []).classOf (objectValue w.objects.length))).contains (.made n) = true := by
    rw [hobj.classOf]
    simp [World.lineage]
  have hused : ((nested k).use (.function f (some (objectValue w.objects.length))) args named).exec
      (w.withObjectOf n []) = (.ok .null, v) := hcall
  have hprepare : ((nested k).prepare (objectValue w.objects.length) args named).exec
      (w.withObjectOf n []) = (.ok (), v) := by
    unfold prepare
    rw [Run.exec_bind, Run.exec_world]
    dsimp only
    rw [hspecial]
    dsimp only
    rw [Run.exec_bind, hused]
    rfl
  have hnew : (Run.newObject (.made n)).exec w =
      (.ok (objectValue w.objects.length), w.withObjectOf n []) := exec_newObject (hb.isOpen hn hn')
  show Run.exec ((nested k).instantiate (.made n) args named) w = _
  unfold instantiate
  dsimp only
  rw [Run.exec_bind, exec_newInstance _ (hb.untouched hn hn' (by decide)) (.inr hinit), hnew]
  dsimp only
  rw [Run.exec_bind, Run.exec_world]
  dsimp only
  rw [if_pos hlineage, Run.exec_bind, hprepare]
  rfl

def keptShapes : List Shape := [.helperTable, .paramSpec, .toolParameter, .inputSchema]

theorem exec_fillRecord (m : Machine) {shape : Shape} (hm : shape ∈ keptShapes)
    {arg : String → Value} (h : w.ObjectAt o shape.cls s []) (hb : w.Bundled)
    (hself : arg "self" = objectValue o) (hs : ∀ name ∈ shape.fields, (arg name).IsShared) :
    (m.fillRecord shape arg).exec w =
      (.ok .null, w.put s (.ofRows (shape.fields.map fun name => (name, arg name)))) := by
  have hfits : ∀ shape ∈ keptShapes, 2 ≤ shape.cls ∧ shape.cls < 9 ∧ shape.fields.Nodup ∧
      ∀ name ∈ shape.fields, Session.start.isPlain (.made shape.cls) name = true := by decide
  obtain ⟨hn, hn', hd, hp⟩ := hfits shape hm
  have assigned := exec_assignFields m arg shape.fields h hb hn hn' hp hs hd
  unfold fillRecord
  rw [hself, Run.exec_bind, assigned]
  rfl

theorem bindAll_fields {shape : Shape} (hm : shape ∈ keptShapes) (self : Value) {xs : List Value}
    (hl : xs.length = shape.fields.length) :
    ∃ arg, bindAll (RecordMethod.fill.signature shape).takes [self] (shape.fields.zip xs) =
      .ok arg ∧ arg "self" = self ∧
      (shape.fields.map fun name => (name, arg name)) = shape.fields.zip xs := by
  simp only [keptShapes, List.mem_cons, List.not_mem_nil, or_false] at hm
  rcases hm with rfl | rfl | rfl | rfl
  · obtain ⟨a, b, rfl⟩ := List.length_eq_two.mp hl
    exact ⟨_, rfl, rfl, rfl⟩
  · obtain ⟨a, b, c, d, e, rfl⟩ : ∃ a b c d e, xs = [a, b, c, d, e] := by
      match xs, hl with
      | [a, b, c, d, e], _ => exact ⟨a, b, c, d, e, rfl⟩
    exact ⟨_, rfl, rfl, rfl⟩
  · obtain ⟨a, b, c, d, rfl⟩ : ∃ a b c d, xs = [a, b, c, d] := by
      match xs, hl with
      | [a, b, c, d], _ => exact ⟨a, b, c, d, rfl⟩
    exact ⟨_, rfl, rfl, rfl⟩
  · obtain ⟨a, b, rfl⟩ := List.length_eq_two.mp hl
    exact ⟨_, rfl, rfl, rfl⟩

theorem exec_makeRecord (k : Nat) (shape : Shape) (hm : shape ∈ keptShapes) (hb : w.Bundled)
    {xs : List Value} (hl : xs.length = shape.fields.length) (hs : ∀ x ∈ xs, x.IsShared) :
    ((nested (k + 2)).invoke (World.recordClass shape) [] (shape.fields.zip xs)).exec w =
      (.ok (objectValue w.objects.length), w.withObjectOf shape.cls (shape.fields.zip xs)) := by
  have hfits : ∀ shape ∈ keptShapes, 2 ≤ shape.cls ∧ shape.cls < 9 := by decide
  obtain ⟨hn, hn'⟩ := hfits shape hm
  obtain ⟨arg, hbind, hself, hargs⟩ :=
    bindAll_fields hm (objectValue w.objects.length) hl
  have hobj : (w.withObjectOf shape.cls []).ObjectAt w.objects.length shape.cls w.cells.length [] :=
    World.objectAt_withObjectOf w shape.cls []
  have hshared : ∀ name ∈ shape.fields, (arg name).IsShared := by
    intro name hname
    have : (name, arg name) ∈ shape.fields.zip xs := by
      rw [← hargs]
      exact List.mem_map_of_mem hname
    exact hs _ (List.of_mem_zip this).2
  have hfilled := exec_fillRecord (nested k) hm hobj ⟨hb.classes, hb.places⟩ hself hshared
  have hfill : Session.start.find? (.made shape.cls) "__init__" =
      some (.made shape.cls, .ofObject (.bundled (.record shape .fill))) := by
    simp only [keptShapes, List.mem_cons, List.not_mem_nil, or_false] at hm
    rcases hm with rfl | rfl | rfl | rfl <;> rfl
  have hdone : (w.withObjectOf shape.cls []).put w.cells.length (.ofRows (shape.fields.zip xs)) =
      w.withObjectOf shape.cls (shape.fields.zip xs) := by
    simp [World.put, World.withObjectOf]
  refine exec_instantiate (k + 1) hb hn hn' hfill ?_
  show ((nested k).applyRecordMethod shape .fill [objectValue w.objects.length]
    (shape.fields.zip xs)).exec _ = _
  unfold applyRecordMethod
  rw [hbind]
  show ((nested k).fillRecord shape arg).exec _ = _
  rw [hfilled, hargs, hdone]

end Machine

end Toolwright
