import Mathlib.Data.List.Forall2
import Toolwright.Proofs.Declaration.Objects
import Toolwright.Proofs.Serving.Hosts

/-!
# Definitions that are being declared

A definition in a world is an object with cells of its own: for its attributes, for the list of its
parameters, and for its two tables of helpers. What it declares is plain data. Reading a definition
gives what was declared last.
-/

namespace Toolwright

set_option autoImplicit false

/-- Where a definition keeps what was declared. -/
structure Draft where
  object : Nat
  /-- The cell of its attributes. -/
  own : Nat
  /-- The cell of the list of its parameters. -/
  params : Nat
  /-- The object of each parameter, and the cell of its attributes. -/
  specs : List (Nat × Nat)
  /-- The object that holds both tables of helpers, and the cell of its attributes. -/
  table : Nat
  tableOwn : Nat
  ofInstance : Nat
  ofClass : Nat

namespace Draft

def value (p : Draft) : Value := objectValue p.object

/-- The cells that change while a definition is declared. -/
def changes (p : Draft) (n : Nat) : Prop :=
  n = p.own ∨ n = p.params ∨ n = p.ofInstance ∨ n = p.ofClass

def cells (p : Draft) : List Nat :=
  p.own :: p.params :: p.ofInstance :: p.ofClass :: p.tableOwn :: p.specs.map (·.2)

end Draft

/-- A function that was stored, and the block that it runs. -/
structure Stored where
  handle : Nat
  block : Block

def Stored.value (s : Stored) : Value := routineValue s.handle

def blockValue : Option Stored → Value
  | none => .null
  | some s => s.value

def helperRows (helpers : List (String × Stored)) : Named :=
  helpers.map fun h => (h.1, h.2.value)

theorem helperRows_insert (name : String) (s : Stored) (helpers : List (String × Stored)) :
    helperRows (Table.insert name s helpers) = Table.insert name s.value (helperRows helpers) :=
  (Table.insert_map (fun _ => Stored.value) name s helpers).symm

def Definition.fields (D : Definition Stored) (p : Draft) : Named :=
  [("_name", D.name), ("_description", D.description), ("_params", cellValue p.params),
    ("_execute_block", blockValue D.block), ("_helper_methods", objectValue p.table)]

/-- The values that a definition declares. -/
def Definition.values (D : Definition Stored) : List Value :=
  D.name :: D.description :: D.params.flatMap ParamSpec.values

namespace World

/-- A definition stands in a world as it was declared. -/
structure Drafts (w : World) (p : Draft) (D : Definition Stored) : Prop where
  object : w.ObjectAt p.object definitionClass p.own (D.fields p)
  params : w.cells[p.params]? = some (.list (p.specs.map fun s => objectValue s.1))
  specs : List.Forall₂ (fun s spec => w.ObjectAt s.1 Shape.paramSpec.cls s.2 (ParamSpec.fields spec))
    p.specs D.params
  table : w.ObjectAt p.table Shape.helperTable.cls p.tableOwn
    [("instance", cellValue p.ofInstance), ("class_scope", cellValue p.ofClass)]
  ofInstance : w.cells[p.ofInstance]? = some (.ofRows (helperRows D.instanceHelpers))
  ofClass : w.cells[p.ofClass]? = some (.ofRows (helperRows D.classHelpers))
  cells : p.cells.Nodup
  block : ∀ s, D.block = some s → w.RunsOn s.handle s.block
  instanceBodies : ∀ row ∈ D.instanceHelpers, w.RunsOn row.2.handle row.2.block
  classBodies : ∀ row ∈ D.classHelpers, w.RunsAlone row.2.handle row.2.block
  instanceNames : (Table.keys D.instanceHelpers).Nodup
  classNames : (Table.keys D.classHelpers).Nodup

/-- What a definition declares is plain data of some cells, none of which is a cell of its own. -/
structure Declares (w : World) (p : Draft) (D : Definition Stored) (C : Nat → Prop) : Prop
    extends w.Drafts p D where
  bundled : w.Bundled
  data : w.HoldsData C
  apart : ∀ n ∈ p.cells, ¬ C n
  values : ∀ x ∈ D.values, x.Within (w.data C) ∧ x.IsShared

variable {w v : World} {p : Draft} {D D' : Definition Stored} {C own : Nat → Prop}

theorem Declares.within_params (h : w.Declares p D C) {spec : ParamSpec} (hs : spec ∈ D.params) :
    ∀ x ∈ spec.values, x.Within (w.data C) := fun x hx =>
  (h.values x (List.mem_cons_of_mem _ (List.mem_cons_of_mem _
    (List.mem_flatMap.mpr ⟨spec, hs, hx⟩)))).1

theorem Declares.within_description (h : w.Declares p D C) : D.description.Within (w.data C) :=
  (h.values _ (List.mem_cons_of_mem _ List.mem_cons_self)).1

theorem Drafts.lt (h : w.Drafts p D) {n : Nat} (hn : n ∈ p.cells) : n < w.cells.length := by
  have hlt {k : Nat} {x : Value} (hk : w.cells[k]? = some x) : k < w.cells.length :=
    (List.getElem?_eq_some_iff.mp hk).1
  simp only [Draft.cells, List.mem_cons, List.mem_map] at hn
  rcases hn with rfl | rfl | rfl | rfl | rfl | ⟨s, hs, rfl⟩
  · exact hlt h.object.cell
  · exact hlt h.params
  · exact hlt h.ofInstance
  · exact hlt h.ofClass
  · exact hlt h.table.cell
  · obtain ⟨i, hi, rfl⟩ := List.getElem_of_mem hs
    have hi' : i < D.params.length := by
      rw [← h.specs.length_eq]
      exact hi
    exact hlt (h.specs.get hi hi').cell

theorem Later.specs (h : w.Later v own) {specs : List (Nat × Nat)} {params : List ParamSpec}
    (hs : List.Forall₂ (fun s spec => w.ObjectAt s.1 Shape.paramSpec.cls s.2 (ParamSpec.fields spec))
      specs params) (ho : ∀ s ∈ specs, ¬ own s.2) :
    List.Forall₂ (fun s spec => v.ObjectAt s.1 Shape.paramSpec.cls s.2 (ParamSpec.fields spec))
      specs params :=
  ((List.forall₂_and_left _ _).mpr ⟨ho, hs⟩).imp fun _ _ hs => h.objectAt hs.2 hs.1

theorem Later.drafts (h : w.Later v own) (hd : w.Drafts p D) (ho : ∀ n ∈ p.cells, ¬ own n) :
    v.Drafts p D where
  object := h.objectAt hd.object (ho _ (by simp [Draft.cells]))
  params := h.cells _ _ (ho _ (by simp [Draft.cells])) hd.params
  specs := h.specs hd.specs fun s hs => ho _ (by simp only [Draft.cells]; grind)
  table := h.objectAt hd.table (ho _ (by simp [Draft.cells]))
  ofInstance := h.cells _ _ (ho _ (by simp [Draft.cells])) hd.ofInstance
  ofClass := h.cells _ _ (ho _ (by simp [Draft.cells])) hd.ofClass
  cells := hd.cells
  block s hs := h.handle (hd.block s hs)
  instanceBodies row hr := h.handle (hd.instanceBodies row hr)
  classBodies row hr := h.handle (hd.classBodies row hr)
  instanceNames := hd.instanceNames
  classNames := hd.classNames

end World

namespace Machine

variable {w : World} {p : Draft} {D : Definition Stored} {C : Nat → Prop}

theorem exec_askName (m : Machine) (h : w.Drafts p D) (hb : w.Bundled) :
    (m.ask p.value "name").exec w = (.ok D.name, w) :=
  exec_ask m (h.object.shows hb (by decide) (by decide)
    (show Session.start.find? (.made definitionClass) _ = some (.made 3, .view "_name") from rfl) rfl)

theorem exec_askParams (m : Machine) (h : w.Drafts p D) (hb : w.Bundled) :
    (m.ask p.value "params").exec w = (.ok (cellValue p.params), w) :=
  exec_ask m (h.object.shows hb (by decide) (by decide)
    (show Session.start.find? (.made definitionClass) _ = some (.made 3, .view "_params") from rfl) rfl)

theorem exec_askBlock (m : Machine) (h : w.Drafts p D) (hb : w.Bundled) :
    (m.ask p.value "execute_block").exec w = (.ok (blockValue D.block), w) :=
  exec_ask m (h.object.shows hb (by decide) (by decide)
    (show Session.start.find? (.made definitionClass) _ = some (.made 3, .view "_execute_block") from rfl) rfl)

theorem exec_askHelpers (m : Machine) (h : w.Drafts p D) (hb : w.Bundled) :
    (m.ask p.value "helper_methods").exec w = (.ok (objectValue p.table), w) :=
  exec_ask m (h.object.shows hb (by decide) (by decide)
    (show Session.start.find? (.made definitionClass) _ = some (.made 3, .view "_helper_methods") from rfl) rfl)

theorem exec_askOwn (m : Machine) (h : w.Drafts p D) (hb : w.Bundled) {name : String} {x : Value}
    (hp : Session.start.isPlain (.made definitionClass) name = true)
    (hx : Table.find? (D.fields p) name = some x) : (m.ask p.value name).exec w = (.ok x, w) :=
  exec_askSet m h.object hb (by decide) (by decide) hp hx

theorem exec_assignOwn (m : Machine) (h : w.Drafts p D) (hb : w.Bundled) {name : String}
    (hp : Session.start.isPlain (.made definitionClass) name = true) (x : Value) :
    (m.assign p.value name x).exec w =
      (.ok (), w.put p.own (.ofRows (Table.insert name x (D.fields p)))) :=
  exec_assignField m h.object hb (by decide) (by decide) hp x

theorem exec_askSpec (m : Machine) (hb : w.Bundled) {o s : Nat} {spec : ParamSpec}
    (h : w.ObjectAt o Shape.paramSpec.cls s spec.fields) {name : String} {x : Value}
    (hp : Session.start.isPlain (.made 5) name = true)
    (hx : Table.find? spec.fields name = some x) : (m.ask (objectValue o) name).exec w = (.ok x, w) :=
  exec_askSet m h hb (by decide) (by decide) hp hx

theorem exec_sendDefinition (k : Nat) (method : DefinitionMethod) (h : w.Drafts p D)
    (hb : w.Bundled) {name : String} (hu : Table.find? (D.fields p) name = none)
    (hf : Session.start.find? (.made definitionClass) name =
      some (.made definitionClass, .ofObject (.bundled (.definition method))))
    (args : List Value) (named : Named) :
    ((nested (k + 1)).send p.value name args named).exec w =
      ((nested k).applyDefinitionMethod method (p.value :: args) named).exec w := by
  have reached := exec_reachUnset (nested (k + 1)) (f := .bundled (.definition method))
    h.object.classOf ((h.object.setAttribute? name).trans hu)
    ((hb.find? (by decide) (by decide) name).trans hf) ?_
  · unfold send
    rw [Run.exec_bind]
    unfold Draft.value objectValue
    rw [reached]
    rfl
  · intro name hname k x
    apply hb.untouched (by decide) (by decide)
    simp only [List.mem_cons, List.not_mem_nil, or_false] at hname
    rcases hname with rfl | rfl <;> decide

theorem exec_sendDescription (k : Nat) (h : w.Drafts p D) (hb : w.Bundled) :
    ((nested (k + 1)).send p.value "description" [] []).exec w = (.ok D.description, w) := by
  rw [exec_sendDefinition k .describe h hb rfl rfl]
  exact exec_askOwn (nested k) h hb (by decide) rfl

end Machine

end Toolwright
