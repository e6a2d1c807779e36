import Toolwright.Proofs.Declaration.Building
import Toolwright.Proofs.Publication.Schema

/-!
# Input schemas of definitions

A serving host lists each declared parameter under the text of its name, with the text of its type. A
later declaration of a name takes the place of an earlier one in the properties; the names of the
required declarations are listed one after another.
-/

namespace Toolwright

set_option autoImplicit false

namespace World

variable {w v : World} {C : Nat → Prop}

def propertyOf (w : World) (type description : Value) : Except Fault Value := do
  return .ofRows ([("type", .str (← w.textOf type))] ++
    if w.truthOf description then [("description", description)] else [])

def servedSpec (w : World) (spec : ParamSpec) : Except Fault ParamSpec := do
  let type ← w.textOf spec.type
  let name ← w.textOf spec.name
  return { name := .str name, type := .str type
           description := if w.truthOf spec.description then spec.description else .null
           required := .bool (w.truthOf spec.required) }

def servedSchema (w : World) (specs : List ParamSpec) : Except Fault InputSchema := do
  InputSchema.ofParams (← specs.mapM w.servedSpec)

theorem truthy_of_truthOf {x : Value} (h : w.truthOf x = true) : x.truthy = true := by
  cases x with
  | opaqueRef o => rfl
  | _ => exact h

theorem of_servedSpec {spec served : ParamSpec} (h : w.servedSpec spec = .ok served) :
    ∃ type name, w.textOf spec.type = .ok type ∧ w.textOf spec.name = .ok name ∧
      served = { name := .str name, type := .str type
                 description := if w.truthOf spec.description then spec.description else .null
                 required := .bool (w.truthOf spec.required) } := by
  obtain ⟨type, ht, h⟩ := of_bind_ok h
  obtain ⟨name, hn, h⟩ := of_bind_ok h
  cases h
  exact ⟨type, name, ht, hn, rfl⟩

theorem row_servedSpec {spec served : ParamSpec} (h : w.servedSpec spec = .ok served) :
    ∃ name property, w.textOf spec.name = .ok name ∧
      w.propertyOf spec.type spec.description = .ok property ∧
      served.row = .ok (name, property) ∧ served.required.truthy = w.truthOf spec.required := by
  obtain ⟨type, name, ht, hn, rfl⟩ := of_servedSpec h
  refine ⟨name, .ofRows ([("type", .str type)] ++ if w.truthOf spec.description then
    [("description", spec.description)] else []), hn, ?_, ?_, rfl⟩
  · unfold propertyOf
    rw [ht]
    rfl
  · refine ParamSpec.row_eq ?_ rfl
    cases hd : w.truthOf spec.description with
    | false => rfl
    | true =>
      show propertySchema (.str type) spec.description = _
      unfold propertySchema
      rw [truthy_of_truthOf hd]
      rfl

/-- The text of the name of a declared parameter, and the property that is published under it. -/
def publishedRow (w : World) (spec : ParamSpec) : Except Fault (String × Value) := do
  let name ← w.textOf spec.name
  return (name, ← w.propertyOf spec.type spec.description)

theorem servedSpecs_rows {specs served : List ParamSpec} {rows : List (String × Value)}
    (h : specs.mapM w.servedSpec = .ok served) (hr : served.mapM ParamSpec.row = .ok rows) :
    specs.mapM w.publishedRow = .ok rows ∧
      requiredOf (·.required.truthy) (served.zip (Table.keys rows)) =
        requiredOf (w.truthOf ·.required) (specs.zip (Table.keys rows)) := by
  induction specs generalizing served rows with
  | nil =>
    cases h
    cases hr
    exact ⟨rfl, rfl⟩
  | cons spec specs ih =>
    obtain ⟨first, rest, hs, hrest, rfl⟩ := of_mapM_cons_ok h
    obtain ⟨name, property, hname, hproperty, hrow, hrequired⟩ := row_servedSpec hs
    obtain ⟨row, others, hrow', hrows, rfl⟩ := of_mapM_cons_ok hr
    rw [hrow] at hrow'
    cases hrow'
    obtain ⟨hall, hnames⟩ := ih hrest hrows
    refine ⟨?_, ?_⟩
    · have hfirst : w.publishedRow spec = .ok (name, property) := by
        unfold publishedRow
        rw [hname, hproperty]
        rfl
      rw [List.mapM_cons, hfirst, hall]
      rfl
    · have hkeys : Table.keys ((name, property) :: others) = name :: Table.keys others := rfl
      rw [hkeys, List.zip_cons_cons, List.zip_cons_cons, requiredOf_cons, requiredOf_cons,
        hnames, hrequired]

theorem of_servedSchema {specs : List ParamSpec} {s : InputSchema}
    (h : w.servedSchema specs = .ok s) :
    ∃ rows, specs.mapM w.publishedRow = .ok rows ∧ s.properties = Table.ofRows rows ∧
      s.required = requiredOf (w.truthOf ·.required) (specs.zip (Table.keys rows)) := by
  obtain ⟨served, hs, h⟩ := of_bind_ok h
  obtain ⟨rows, hrows, hproperties, hrequired⟩ := InputSchema.ofParamsFrom_eq h
  obtain ⟨hall, hnames⟩ := servedSpecs_rows hs hrows
  exact ⟨rows, hall, hproperties, by rw [hrequired, List.nil_append, hnames]⟩

theorem Retains.servedSpec (h : w.Retains v C) (hd : w.HoldsData C) {spec : ParamSpec}
    (hx : ∀ x ∈ spec.values, x.Within (w.data C)) : v.servedSpec spec = w.servedSpec spec := by
  have hvalue {x : Value} (hm : x ∈ spec.values) := hx x hm
  unfold World.servedSpec
  rw [h.textOf hd (hvalue (x := spec.type) (by simp [ParamSpec.values])),
    h.textOf hd (hvalue (x := spec.name) (by simp [ParamSpec.values])),
    h.truthOf hd (hvalue (x := spec.description) (by simp [ParamSpec.values])),
    h.truthOf hd (hvalue (x := spec.required) (by simp [ParamSpec.values]))]

theorem Retains.servedSchema (h : w.Retains v C) (hd : w.HoldsData C) {specs : List ParamSpec}
    (hx : ∀ spec ∈ specs, ∀ x ∈ spec.values, x.Within (w.data C)) :
    v.servedSchema specs = w.servedSchema specs := by
  unfold World.servedSchema
  congr 1
  induction specs with
  | nil => rfl
  | cons spec specs ih =>
    rw [List.mapM_cons, List.mapM_cons, h.servedSpec hd (hx spec List.mem_cons_self),
      ih fun spec hs => hx spec (List.mem_cons_of_mem _ hs)]

theorem within_property {type description property : Value} (hd : description.Within (w.data C))
    (h : w.propertyOf type description = .ok property) : property.Within (w.data C) := by
  obtain ⟨text, _, h⟩ := of_bind_ok h
  cases h
  refine Value.withinRows_iff.mpr fun row hrow => ?_
  simp only [List.map_append, List.mem_append, List.map_cons, List.map_nil,
    List.mem_singleton, List.mem_map] at hrow
  rcases hrow with rfl | ⟨row, hrow, rfl⟩
  · exact ⟨trivial, trivial⟩
  · split at hrow
    · rw [List.mem_singleton.mp hrow]
      exact ⟨trivial, hd⟩
    · cases hrow

theorem length_publishedRows {specs : List ParamSpec} {rows : Named}
    (h : specs.mapM w.publishedRow = .ok rows) : rows.length = specs.length := by
  induction specs generalizing rows with
  | nil =>
    cases h
    rfl
  | cons spec specs ih =>
    obtain ⟨row, rest, _, hrest, rfl⟩ := of_mapM_cons_ok h
    exact congrArg (· + 1) (ih hrest)

theorem within_publishedRows {specs : List ParamSpec} {rows : Named}
    (hx : ∀ spec ∈ specs, spec.description.Within (w.data C))
    (h : specs.mapM w.publishedRow = .ok rows) :
    ∀ row ∈ rows, row.2.Within (w.data C) := by
  induction specs generalizing rows with
  | nil =>
    cases h
    simp
  | cons spec specs ih =>
    obtain ⟨row, rest, hs, hrest, rfl⟩ := of_mapM_cons_ok h
    have hrows := ih (fun spec hs => hx spec (List.mem_cons_of_mem _ hs)) hrest
    rintro _ (_ | ⟨_, hm⟩)
    · obtain ⟨name, _, hs⟩ := of_bind_ok hs
      obtain ⟨property, hproperty, hs⟩ := of_bind_ok hs
      cases hs
      exact within_property (hx spec List.mem_cons_self) hproperty
    · exact hrows _ hm

theorem within_ofRows {rows : Named} {e : Extent} (hx : ∀ row ∈ rows, row.2.Within e) :
    (Value.ofRows (Table.ofRows rows)).Within e := by
  refine Value.withinRows_iff.mpr fun row hrow => ?_
  obtain ⟨named, hn, rfl⟩ := List.mem_map.mp hrow
  exact ⟨trivial, hx named (Table.mem_ofRows hn)⟩

theorem within_servedSchema {specs : List ParamSpec} {s : InputSchema}
    (hx : ∀ spec ∈ specs, spec.description.Within (w.data C)) (h : w.servedSchema specs = .ok s) :
    (Value.ofRows s.properties).Within (w.data C) := by
  obtain ⟨rows, hrows, hproperties, -⟩ := of_servedSchema h
  rw [hproperties]
  exact within_ofRows (within_publishedRows hx hrows)

end World

namespace Machine

variable {w v : World} {p : Draft} {D : Definition Stored} {C : Nat → Prop}

theorem exec_servedParam (m : Machine) (hb : w.Bundled) (hd : w.HoldsData C) {o s : Nat}
    {spec : ParamSpec} (h : w.ObjectAt o Shape.paramSpec.cls s spec.fields)
    (hx : ∀ x ∈ spec.values, x.Within (w.data C)) :
    (m.servedParam (objectValue o)).exec w = (w.servedSpec spec, w) := by
  have ask (field : String) {x : Value}
      (hp : Session.start.isPlain (.made 5) field = true)
      (hfield : Table.find? spec.fields field = some x) :=
    exec_askSpec m hb h hp hfield
  unfold servedParam World.servedSpec
  rw [Run.exec_bind, ask "type" (by decide) rfl]
  dsimp only
  rw [Run.exec_bind, exec_text m hd (hx _ (by simp [ParamSpec.values]))]
  cases w.textOf spec.type with
  | error f => rfl
  | ok type =>
    dsimp only
    rw [Run.exec_bind, ask "description" (by decide) rfl]
    dsimp only
    rw [Run.exec_bind, exec_truthy m hd (hx _ (by simp [ParamSpec.values]))]
    have rest (description : Value) : Run.exec (do
        let name ← m.text (← m.ask (objectValue o) "name")
        return ({ name := .str name, type := .str type, description
                  required := .bool (← m.truthy (← m.ask (objectValue o) "required")) } :
          ParamSpec)) w = ((do
        let name ← w.textOf spec.name
        return { name := .str name, type := .str type, description
                 required := .bool (w.truthOf spec.required) }), w) := by
      rw [Run.exec_bind, ask "name" (by decide) rfl]
      dsimp only
      rw [Run.exec_bind, exec_text m hd (hx _ (by simp [ParamSpec.values]))]
      cases w.textOf spec.name with
      | error f => rfl
      | ok name =>
        dsimp only
        rw [Run.exec_bind, ask "required" (by decide) rfl]
        dsimp only
        rw [Run.exec_bind, exec_truthy m hd (hx _ (by simp [ParamSpec.values]))]
        rfl
    dsimp only
    cases w.truthOf spec.description with
    | false => exact rest .null
    | true => exact rest spec.description

theorem exec_servedSchema (m : Machine) (h : w.Declares p D C) :
    (m.servedSchema p.value).exec w = (w.servedSchema D.params, w) := by
  have params {places : List (Nat × Nat)} {specs : List ParamSpec}
      (hs : List.Forall₂ (fun s spec => w.ObjectAt s.1 Shape.paramSpec.cls s.2
        (ParamSpec.fields spec)) places specs)
      (hx : ∀ spec ∈ specs, ∀ x ∈ spec.values, x.Within (w.data C)) :
      ((places.map fun s => objectValue s.1).mapM m.servedParam).exec w =
        (specs.mapM w.servedSpec, w) := by
    induction hs with
    | nil => rfl
    | cons hobj _ ih =>
      rw [List.map_cons, List.mapM_cons, List.mapM_cons, Run.exec_bind,
        exec_servedParam m h.bundled h.data hobj (hx _ List.mem_cons_self)]
      cases w.servedSpec _ with
      | error f => rfl
      | ok spec =>
        dsimp only
        rw [Run.exec_bind, ih fun spec hs => hx spec (List.mem_cons_of_mem _ hs)]
        cases List.mapM w.servedSpec _ <;> rfl
  have hvalues : ∀ spec ∈ D.params, ∀ x ∈ spec.values, x.Within (w.data C) := by
    intro spec hs x hx
    refine (h.values x (List.mem_cons_of_mem _ (List.mem_cons_of_mem _ ?_))).1
    exact List.mem_flatMap.mpr ⟨spec, hs, hx⟩
  unfold servedSchema World.servedSchema
  rw [Run.exec_bind, exec_askParams m h.toDrafts h.bundled]
  dsimp only
  rw [Run.exec_bind, exec_iterate m h.params]
  dsimp only
  rw [Run.exec_bind, params h.specs hvalues]
  cases D.params.mapM w.servedSpec with
  | error f => rfl
  | ok specs => exact Run.exec_lift _ _

end Machine

/-! ## Required names -/

/-- What is known of the required names of declared parameters, of which the names have texts. -/
structure World.Requires (w : World) (specs : List ParamSpec) (names : List String)
    (s : InputSchema) : Prop where
  /-- A name is required just if one of its declarations is. -/
  mem : ∀ name, name ∈ s.required ↔
    ∃ spec, (spec, name) ∈ specs.zip names ∧ w.truthOf spec.required = true
  listed : ∀ name ∈ s.required, name ∈ Table.keys s.properties
  /-- Names that are declared once are required at most once, in the order of the properties. -/
  once : names.Nodup → s.required.Nodup ∧ s.required.Sublist (Table.keys s.properties)
  /-- Of names that are declared once, the required ones are those of required declarations. -/
  exact : names.Nodup → ∀ spec name, (spec, name) ∈ specs.zip names →
    (name ∈ s.required ↔ w.truthOf spec.required = true)

theorem World.servedSchema_requires {w : World} {specs : List ParamSpec} {s : InputSchema}
    (h : w.servedSchema specs = .ok s) :
    ∃ rows, specs.mapM w.publishedRow = .ok rows ∧ s.properties = Table.ofRows rows ∧
      w.Requires specs (Table.keys rows) s := by
  obtain ⟨rows, hrows, hproperties, hrequired⟩ := of_servedSchema h
  have hlength : (Table.keys rows).length ≤ specs.length :=
    Nat.le_of_eq ((List.length_map _).trans (length_publishedRows hrows))
  have hnames : (specs.zip (Table.keys rows)).map (·.2) = Table.keys rows :=
    List.map_snd_zip hlength
  have hsub : s.required.Sublist (Table.keys rows) := by
    have all : (requiredOf (w.truthOf ·.required) (specs.zip (Table.keys rows))).Sublist _ :=
      requiredOf_sublist
    rwa [hnames, ← hrequired] at all
  have hmem (name : String) : name ∈ s.required ↔
      ∃ spec, (spec, name) ∈ specs.zip (Table.keys rows) ∧ w.truthOf spec.required = true := by
    rw [hrequired, mem_requiredOf]
  refine ⟨rows, hrows, hproperties, hmem, fun name hn => ?_, fun hnodup => ?_, ?_⟩
  · rw [hproperties, Table.mem_keys_ofRows_iff]
    exact hsub.subset hn
  · rw [hproperties, Table.ofRows_of_nodup hnodup]
    exact ⟨hnodup.sublist hsub, hsub⟩
  · intro hnodup spec name hspec
    rw [hmem]
    refine ⟨fun ⟨other, ho, ht⟩ => ?_, fun ht => ⟨spec, hspec, ht⟩⟩
    exact eq_of_mem_rows (hnames.symm ▸ hnodup) ho hspec ▸ ht

namespace Session

/-- Whatever was declared of a definition, its schema can be built or not without any change; a
schema that was built lists the declared parameters under the texts of their names, and its required
names are those of required declarations. -/
theorem built_schema_requires {w : World} {id : String} {p : Draft} {D : Definition Stored}
    {C : Nat → Prop} (h : Holds w id p D C) (ops : List Builder) :
    ∃ p' D' C', Holds (performAll w (ops.map (Builder.step id))).2 id p' D' C' ∧ D.Built ops D' ∧
      ∀ s v, (machine.servedSchema p'.value).exec (performAll w (ops.map (Builder.step id))).2 =
          (.ok s, v) →
        v = (performAll w (ops.map (Builder.step id))).2 ∧
        ∃ rows, D'.params.mapM v.publishedRow = .ok rows ∧ s.properties = Table.ofRows rows ∧
          v.Requires D'.params (Table.keys rows) s := by
  obtain ⟨p', D', C', hh, hb, -⟩ := performAll_builders h ops
  refine ⟨p', D', C', hh, hb, fun s v hs => ?_⟩
  rw [Machine.exec_servedSchema machine hh.toDeclares] at hs
  obtain ⟨hschema, rfl⟩ := Prod.mk.inj hs
  exact ⟨rfl, World.servedSchema_requires hschema⟩

def twice : List Builder :=
  [.param { name := .str "x" }, .param { name := .str "x", type := .str "integer" }]

set_option maxRecDepth 100000 in
theorem built_schema_requires_twice : ∃ w p D C, Holds w "d" p D C ∧
    ∃ p' D' C', Holds (performAll w (twice.map (Builder.step "d"))).2 "d" p' D' C' ∧
      D.Built twice D' ∧
      ∀ s v, (machine.servedSchema p'.value).exec
          (performAll w (twice.map (Builder.step "d"))).2 = (.ok s, v) →
        ∃ names, v.Requires D'.params names s := by
  have told : (perform start (.define "d" (.str "tool") none)).1.outcome.isOk = true := by
    decide +kernel
  cases ha : (perform start (.define "d" (.str "tool") none)).1.outcome with
  | error f =>
    rw [ha] at told
    cases told
  | ok a =>
    obtain ⟨p, x, C, h, -⟩ := perform_define bundled_start holdsData_start "d" (.str "tool") ha
    obtain ⟨p', D', C', hh, hb, hs⟩ := built_schema_requires h twice
    refine ⟨_, p, _, C, h, p', D', C', hh, hb, fun s v hv => ?_⟩
    obtain ⟨-, rows, -, -, hr⟩ := hs s v hv
    exact ⟨_, hr⟩

/-- A session that declares a required parameter twice and asks for the schema. -/
def declaredTwice : List Step :=
  .define "d" (.str "tool") none :: twice.map (Builder.step "d") ++ [.inputSchema (some "d")]

/-- The required names of a schema that is told as a pair. -/
def requiredTold (reply : Reply) : List String :=
  match reply.outcome with
  | .ok (.tuple [_, .list names]) => names.filterMap fun
    | .str name => some name
    | _ => none
  | _ => []

set_option maxRecDepth 100000 in
/-- A name that is declared twice stands twice among the required names. -/
theorem declaredTwice_required :
    (replies 30 declaredTwice).map requiredTold = [[], [], [], ["x", "x"]] := by
  decide +kernel

end Session

end Toolwright
