import Toolwright.Proofs.Adaptation.FunctionTool
import Toolwright.Proofs.Publication.Exposed
import Toolwright.Proofs.Publication.ServedSchema

/-!
# Making tools of serving hosts

A definition that is adapted for a serving host becomes a class with the schema of its parameters, and
a helper class with all its helpers. The schema is made of new containers.
-/

namespace Toolwright

set_option autoImplicit false

def servingMethods : List (String × HostMethod) :=
  [("tool_name", .servedName), ("description", .description), ("input_schema", .inputSchema),
    ("to_dict", .listing)]

namespace World

variable {w v : World} {b : ClassRef} {C own : Nat → Prop}

theorem find?_builtIn_ne_made (w : World) (kind : Kind) (name : String) (k : Nat) (a : Attribute) :
    w.find? (.builtIn kind) name ≠ some (.made k, a) := by
  intro h
  rcases isBuiltIn?_find? w kind name with hf | hf
  · rw [h] at hf
    cases hf
  · rw [h] at hf
    exact hf

/-- A class below which classes of served tools are made; it is not told of them. -/
structure ServingBase (w : World) (b : ClassRef) : Prop extends w.HasMethods b servingMethods where
  untold : ∀ k a, w.find? b "__init_subclass__" ≠ some (.made k, a)

theorem Later.servingBase (hl : w.Later v own) (h : w.ServingBase b) : v.ServingBase b where
  toHasMethods := hl.hasMethods h.toHasMethods
  untold k a := by
    rw [hl.find? h.rooted]
    exact h.untold k a

end World

namespace Machine

variable {w v : World} {p : Draft} {D : Definition Stored} {C : Nat → Prop}

/-! ## Input schemas of classes -/

theorem exec_copyIfAny {β : Type} {n : Nat} {x empty : Value} {r : Run Value} (m : Machine)
    (hd : w.HoldsData C) (hc : C n) (h : w.cells[n]? = some x) (he : x.truthy = false → x = empty)
    (hr : r.exec w = (.ok (cellValue w.cells.length), w.withCell x)) (f : Value → Run β) :
    Run.exec (do
      if ← m.truthy (cellValue n) then
        let y ← r
        f y
      else
        let y ← Run.kept empty
        f y) w = (f (cellValue w.cells.length)).exec (w.withCell x) := by
  have htruth : w.truthOf (cellValue n) = x.truthy := by
    unfold World.truthOf
    rw [World.followed_cell h]
  rw [Run.exec_bind, exec_truthy m hd (show (cellValue n).Within (w.data C) from hc), htruth]
  dsimp only
  cases ht : x.truthy with
  | true =>
    rw [if_pos rfl, Run.exec_bind, hr]
  | false =>
    rw [he ht]
    rfl

def withSchema (w : World) (n : Nat) (properties : Named) (required : List String) : World :=
  (((w.withCell (.ofRows properties)).withCell (.list (required.map .str))).withObjectOf
    Shape.inputSchema.cls [("properties", cellValue w.cells.length),
      ("required", cellValue (w.cells.length + 1))]).setAttribute n "_input_schema"
        (.value (objectValue w.objects.length))

theorem exec_declareSchema (k : Nat) {n a r : Nat} (hb : w.Bundled) (hd : w.HoldsData C) (ha : C a)
    (hr : C r) {properties : Named} {required : List String}
    (hp : w.cells[a]? = some (.ofRows properties))
    (hq : w.cells[r]? = some (.list (required.map .str))) (hn : (Table.keys properties).Nodup) :
    ((nested (k + 2)).declareSchema (.made n) (cellValue a) (cellValue r)).exec w =
      (.ok .null, withSchema w n properties required) := by
  let u := w.withCell (.ofRows properties)
  have hu : w.Later u (fun _ => False) := (World.Later.refl w _).newCell _
  have hcells : u.cells.length = w.cells.length + 1 := by simp [u, World.withCell]
  let t := u.withCell (.list (required.map .str))
  have ht : w.Later t (fun _ => False) := hu.newCell _
  have hmade := exec_makeRecord (w := t) k .inputSchema (by decide) (ht.bundled hb)
    (show [cellValue w.cells.length, cellValue (w.cells.length + 1)].length = _ from rfl) (by
      intro x hx
      simp only [List.mem_cons, List.not_mem_nil, or_false] at hx
      rcases hx with rfl | rfl <;> rfl)
  unfold declareSchema
  rw [exec_copyIfAny (nested (k + 2)) hd ha hp
    (by cases properties <;> simp [Value.ofRows, Value.truthy])
    (exec_copyRows (k + 1) hn hp hb.places)]
  show Run.exec _ u = _
  rw [exec_copyIfAny (nested (k + 2)) ((hu.retains hd fun _ _ => id).holdsData hd) hr
    (hu.cells _ _ id hq) (by cases required <;> simp [Value.truthy])
    (exec_copyItems (nested (k + 2)) (hu.cells _ _ id hq))]
  show Run.exec _ t = _
  rw [Run.exec_bind, hcells]
  rw [show ([("properties", cellValue w.cells.length), ("required", cellValue (w.cells.length + 1))] :
    Named) = Shape.inputSchema.fields.zip [cellValue w.cells.length, cellValue (w.cells.length + 1)]
      from rfl, hmade]
  exact exec_declareOn ⟨by decide, by decide⟩ _

end Machine

/-- Where an input schema is kept: its object, the cell of its attributes, and the cells of the
properties and of the required names. -/
structure SchemaPlace where
  object : Nat
  own : Nat
  properties : Nat
  required : Nat

namespace World

variable {w v : World} {C own : Nat → Prop} {q : SchemaPlace} {properties : Named}
  {required : List String}

structure SchemaAt (w : World) (q : SchemaPlace) (properties : Named) (required : List String)
    (C : Nat → Prop) : Prop where
  object : w.ObjectAt q.object Shape.inputSchema.cls q.own
    [("properties", cellValue q.properties), ("required", cellValue q.required)]
  properties : w.cells[q.properties]? = some (.ofRows properties)
  required : w.cells[q.required]? = some (.list (required.map .str))
  apart : ¬ C q.own
  data : C q.properties ∧ C q.required

def HasSchemaCell (w : World) (n k : Nat) : Prop :=
  ∃ o, w.own? (.made n) "_input_schema" = some (.value (objectValue o)) ∧
    ∃ obj, w.objects[o]? = some obj ∧ obj.attributes = some k

structure Exposes (v w : World) (q : SchemaPlace) (s : InputSchema) : Prop where
  properties : v.exposed (cellValue q.properties) = w.exposed (.ofRows s.properties)
  required : v.exposed (cellValue q.required) = w.exposed (.list (s.required.map .str))

theorem Later.schemaAt (hl : w.Later v own) (h : w.SchemaAt q properties required C)
    (ho : ¬ own q.own) (hC : ∀ n, C n → ¬ own n) : v.SchemaAt q properties required C where
  object := hl.objectAt h.object ho
  properties := hl.cells _ _ (hC _ h.data.1) h.properties
  required := hl.cells _ _ (hC _ h.data.2) h.required
  apart := h.apart
  data := h.data

theorem hosted_ofParamsFrom (s : InputSchema) (specs : List ParamSpec) :
    Hosted (s.ofParamsFrom specs) := by
  have texts (x : Value) : Hosted x.text := by
    unfold Value.text
    split
    · exact .ok _
    · exact .ok _
    · exact .fault (by simp)
    · exact x.hosted_printed
  induction specs generalizing s with
  | nil => exact .ok _
  | cons spec specs ih =>
    refine Hosted.bind ?_ fun _ => (texts _).bind fun _ => ih _
    exact (texts _).bind fun _ => .ok _

theorem hosted_servedSchema (w : World) (specs : List ParamSpec) :
    Hosted (w.servedSchema specs) := by
  have served (spec : ParamSpec) : Hosted (w.servedSpec spec) :=
    (w.hosted_textOf _).bind fun _ => (w.hosted_textOf _).bind fun _ => .ok _
  exact (Hosted.mapM served specs).bind fun specs => hosted_ofParamsFrom _ specs

structure ServedAttributes (D : Definition Stored) (p : Draft) (t : Nat) (indent : Value)
    (text : String) (o : Nat) (own : String → Option Attribute) : Prop where
  name : own "_name" = some (.value (.str text))
  description : Describes (own "_description") D.description
  schema : own "_input_schema" = some (.value (objectValue o))
  definition : own "definition" = some (.value p.value)
  helperClass : own "helper_class" = some (.value (classValue (.made t)))
  call : own "call" = some (.ofClass (.serves p.value t indent text))
  others : ∀ key, key ∉ ClassPlan.standing → key ∉ ["_name", "_description", "_input_schema",
    "definition", "helper_class", "call"] → own key = none

structure HelperAttributes (D : Definition Stored) (own : String → Option Attribute) : Prop where
  helpers : ∀ key, key ∉ ClassPlan.standing →
    own key = ((D.helper? key).map helperAttribute).map fun a => (ClassPlan.settle (key, a)).2
  covers : D.Covers [] own

end World

namespace Machine

variable {w v : World} {p : Draft} {D : Definition Stored} {C : Nat → Prop}

def servedRows (doc : Value) (p : Draft) (helperClass : Nat) (indent : Value) (text : String) :
    List (String × Attribute) :=
  [("__module__", .value (.str World.mcpModule)), ("__doc__", .value doc),
    ("definition", .value p.value),
    ("helper_class", .value (World.classValue (.made helperClass))),
    ("call", .ofClass (.serves p.value helperClass indent text))]

def helperRowsOf (D : Definition Stored) : List (String × Attribute) :=
  withAttributes (D.freeRows []) [("__module__", .value (.str World.mcpModule))]

theorem exec_tellNone {m : Machine} {b : ClassRef} {cls : HostClass} (hroot : w.Rooted b)
    (hb : ∀ k a, w.find? b "__init_subclass__" ≠ some (.made k, a))
    (hl : cls.lineage = w.lineage b) :
    (m.tellAbove w.classes.length).exec (w.withClass cls) =
      (.ok w.classes.length, w.withClass cls) := by
  have habove : (w.withClass cls).above (.made w.classes.length) = (w.withClass cls).lineage b := by
    rw [(w.later_withClass cls).lineage hroot, ← hl]
    simp [World.above, World.withClass]
  have hnone : ∀ k a, ((w.withClass cls).above (.made w.classes.length)).findSome? (fun holder =>
      ((w.withClass cls).own? holder "__init_subclass__").map (holder, ·)) ≠ some (.made k, a) := by
    intro k a he
    rw [habove] at he
    exact hb k a (((w.later_withClass cls).find? hroot "__init_subclass__").symm.trans he)
  unfold tellAbove
  rw [Run.exec_bind, Run.exec_world]
  dsimp only
  split
  · exact absurd ‹_› (hnone _ _)
  · rfl

theorem of_buildUntold {m : Machine} {name : String} {b : ClassRef}
    {attributes : List (String × Attribute)} (hroot : w.Rooted b)
    (hb : ∀ k a, w.find? b "__init_subclass__" ≠ some (.made k, a))
    (hs : ∀ x, Table.find? (Table.ofRows attributes) "__slots__" ≠ some (.value x))
    (hq : ∀ x, Table.find? (Table.ofRows attributes) "__qualname__" ≠ some (.value x))
    {x : Except Fault Nat} (hr : (m.buildClass name b attributes).exec w = (x, v)) :
    (v = w ∧ (∀ n, x ≠ .ok n) ∧ Hosted x) ∨
      x = .ok w.classes.length ∧ v = w.withClass (builtClass w name b attributes) := by
  rcases exec_buildPlain m hs hq with ⟨f, hf, hosted⟩ | hbuild
  · cases hf.symm.trans hr
    exact .inl ⟨rfl, (fun _ h => by cases h), hosted⟩
  · rw [exec_tellNone hroot hb rfl] at hbuild
    cases hbuild.symm.trans hr
    exact .inr ⟨rfl, rfl⟩

theorem getElem?_withSchema (w : World) (n : Nat) (properties : Named) (required : List String) :
    (withSchema w n properties required).cells[w.cells.length]? = some (.ofRows properties) ∧
      (withSchema w n properties required).cells[w.cells.length + 1]? =
        some (.list (required.map .str)) := by
  constructor <;> simp [withSchema, World.withCell, World.withObjectOf, World.setAttribute,
    World.modifyClass]

theorem exec_giveSchema (k : Nat) {n : Nat} (hb : w.Bundled) (hd : w.HoldsData C) {s : InputSchema}
    (hs : (Value.ofRows s.properties).Within (w.data C)) (hn : (Table.keys s.properties).Nodup)
    (hroot : w.Rooted (.made n)) (hfind : ∃ k, w.find? (.made n) "input_schema" =
      some (k, .ofClass (.bundled (.host .inputSchema)))) :
    ∃ P R u v q C' properties, (schemaFields s).exec w = (.ok (P, R), u) ∧
      ((nested (k + 3)).send (World.classValue (.made n)) "input_schema" []
        [("properties", P), ("required", R)]).exec u = (.ok .null, v) ∧
      (∃ u', w.Later u' (fun _ => False) ∧
        v = u'.setAttribute n "_input_schema" (.value (objectValue q.object))) ∧
      v.HoldsData C' ∧ (∀ n, C n → C' n) ∧ (∀ n, C' n → C n ∨ w.cells.length ≤ n) ∧
      R.Within (v.data C') ∧ v.SchemaAt q properties s.required C' ∧ w.cells.length ≤ q.own ∧
      Table.keys properties = Table.keys s.properties ∧ v.Exposes w q s := by
  obtain ⟨named, u₁, hshare, hkeys, hg₁, hwithin₁, hexposed₁⟩ := Run.exec_shareNamed hd hs
  let R : Value := .list (s.required.map .str)
  have hlist (e : Extent) : R.Within e := by
    refine Value.withinItems_iff.mpr fun x hx => ?_
    obtain ⟨name, _, rfl⟩ := List.mem_map.mp hx
    trivial
  -- four new cells of data: the rows and the names, and a copy of each
  let u₂ := u₁.withCell (.ofRows named)
  let u₃ := u₂.withCell R
  let u₄ := u₃.withCell (.ofRows named)
  obtain ⟨hg₂, hb₂⟩ := hg₁.addCell hwithin₁
  obtain ⟨hg₃, hb₃⟩ := hg₂.addCell (hlist _)
  obtain ⟨hg₄, hb₄⟩ := hg₃.addCell (hwithin₁.mono (hb₂.trans hb₃))
  obtain ⟨hg₅, hb₅⟩ := hg₄.addCell (hlist _)
  have hlen₂ : u₂.cells.length = u₁.cells.length + 1 := by simp [u₂, World.withCell]
  have hlen₃ : u₃.cells.length = u₂.cells.length + 1 := by simp [u₃, World.withCell]
  have hlen₄ : u₄.cells.length = u₃.cells.length + 1 := by simp [u₄, World.withCell]
  have hle := hg₁.later.cells_le
  have hrows : u₃.cells[u₁.cells.length]? = some (.ofRows named) :=
    ((World.Later.refl u₂ (fun _ => False)).newCell R).cells _ _ id (World.getElem?_withCell u₁ _)
  have hnames : u₃.cells[u₂.cells.length]? = some R := World.getElem?_withCell u₂ _
  have hdeclared := exec_declareSchema k (n := n) (hg₃.later.bundled hb) hg₃.data
    (show w.gained C u₃ u₁.cells.length from ⟨.inr hle, by omega⟩)
    (show w.gained C u₃ u₂.cells.length from ⟨.inr (by omega), by omega⟩) hrows hnames
    (hkeys ▸ hn)
  let u₅ := u₄.withCell R
  let u₆ := u₅.withObjectOf Shape.inputSchema.cls [("properties", cellValue u₃.cells.length),
    ("required", cellValue (u₃.cells.length + 1))]
  have hlen₅ : u₅.cells.length = u₄.cells.length + 1 := by simp [u₅, World.withCell]
  have hlast : u₅.Later u₆ (fun _ => False) := (World.Later.refl u₅ _).withObjectOf _ _
  have hr : u₅.Retains (withSchema u₃ n named s.required) (w.gained C u₅) :=
    { hlast.retains hg₅.data fun _ _ => id with }
  have hr₁ : u₁.Retains u₃ (w.gained C u₁) :=
    (((World.Later.refl u₁ (fun _ => False)).newCell _).newCell _).retains hg₁.data fun _ _ => id
  have hlast₄ : u₄.Later u₆ (fun _ => False) :=
    ((World.Later.refl u₄ (fun _ => False)).newCell R).withObjectOf _ _
  have hr₄ : u₄.Retains (withSchema u₃ n named s.required) (w.gained C u₄) :=
    { hlast₄.retains hg₄.data fun _ _ => id with }
  have hcopied : u₄.exposed (cellValue u₃.cells.length) = u₃.exposed (.ofRows named) :=
    (World.Gains.withCell hg₃.data (hwithin₁.mono (hb₂.trans hb₃))).2.2
  have hlisted : u₅.exposed (cellValue u₄.cells.length) = u₄.exposed R :=
    (World.Gains.withCell hg₄.data (hlist _)).2.2
  have hobj := World.objectAt_withObjectOf u₅ Shape.inputSchema.cls
    [("properties", cellValue u₃.cells.length), ("required", cellValue (u₃.cells.length + 1))]
  obtain ⟨hfirst, hsecond⟩ := getElem?_withSchema u₃ n named s.required
  refine ⟨cellValue u₁.cells.length, cellValue u₂.cells.length, u₃,
    withSchema u₃ n named s.required, ⟨u₃.objects.length, u₅.cells.length, u₃.cells.length,
      u₃.cells.length + 1⟩, w.gained C u₅, named, ?_, ?_,
    ⟨u₆, hg₅.later.withObjectOf _ _, rfl⟩, hr.holdsData hg₅.data, ?_, ?_, ?_, ?_,
    by dsimp only; omega, hkeys, ?_⟩
  · unfold schemaFields
    rw [Run.exec_bind, hshare]
    dsimp only
    rw [Run.exec_bind, Run.share_texts]
    rfl
  · have hfound : ∃ k, u₃.find? (.made n) "input_schema" =
        some (k, .ofClass (.bundled (.host .inputSchema))) := by
      rw [hg₃.later.find? hroot]
      exact hfind
    rw [exec_sendMethod (k + 2) ⟨by decide, by decide⟩ (by decide) hfound]
    exact hdeclared
  · exact fun m hm => ⟨.inl hm, Nat.lt_of_lt_of_le (hd.lt hm) hg₅.later.cells_le⟩
  · exact fun m hm => hm.1
  · exact ⟨.inr (by omega), by omega⟩
  · exact {
      object := ⟨hobj.object, hobj.cell⟩
      properties := hfirst
      required := hsecond
      apart := fun hc => absurd hc.2 (Nat.lt_irrefl _)
      data := ⟨⟨.inr (by dsimp only; omega), by dsimp only; omega⟩,
        ⟨.inr (by dsimp only; omega), by dsimp only; omega⟩⟩ }
  · refine ⟨?_, ?_⟩
    · rw [hr₄.exposed hg₄.data (show (cellValue u₃.cells.length).Within _ from
        ⟨.inr (by omega), by omega⟩), hcopied, hr₁.exposed hg₁.data hwithin₁, hexposed₁]
    · rw [hr.exposed hg₅.data (show (cellValue (u₃.cells.length + 1)).Within _ from
        ⟨.inr (by omega), by omega⟩), ← hlen₄, hlisted,
        (hg₄.retains hd).exposed hd (hlist (w.data C))]

theorem exec_schemaFields (hd : w.HoldsData C) {s : InputSchema}
    (hx : (Value.ofRows s.properties).Within (w.data C)) :
    ∃ P R u, (schemaFields s).exec w = (.ok (P, R), u) ∧ w.Later u (fun _ => False) ∧
      u.exposed P = w.exposed (.ofRows s.properties) ∧
      u.exposed R = w.exposed (.list (s.required.map .str)) := by
  obtain ⟨P, u, hP, hsP⟩ := Run.exec_share hd hx
  have texts (e : Extent) : (Value.list (s.required.map .str)).Within e := by
    refine Value.withinItems_iff.mpr fun x hx => ?_
    obtain ⟨name, -, rfl⟩ := List.mem_map.mp hx
    trivial
  obtain ⟨R, v, hR, hsR⟩ := Run.exec_share hsP.gains.data (texts _)
  refine ⟨P, R, v, ?_, hsP.gains.later.trans hsR.gains.later fun _ hn _ => hn, ?_, ?_⟩
  · unfold schemaFields
    rw [Run.exec_bind, hP]
    dsimp only
    rw [Run.exec_bind, hR]
    rfl
  · rw [(hsR.gains.retains hsP.gains.data).exposed hsP.gains.data hsP.data, hsP.exposed]
  · rw [hsR.exposed, (hsP.gains.retains hd).exposed hd (texts _)]

/-! ## The class -/

/-- The indentation of results: that of a configuration, if there is one. -/
def indentOf (m : Machine) (config : Value) : Run Value := do
  if ← m.truthy config then m.ask config "json_indent"
  else pure ({} : Config).jsonIndent

def adaptServed (m : Machine) (definition base indent : Value) : Run Value := do
  let toolName ← m.nameText definition
  let helperName := Naming.className (← m.nameText definition) "Helpers"
  let helpers ← m.helpersOf definition
  let helperClass ← m.buildClass helperName (.builtIn .object)
    (withAttributes (helpers.filterMap Helper.attribute?)
      [("__module__", .value (.str World.mcpModule))])
  let doc ← m.send definition "description" [] []
  let name ← m.nameText definition
  let n ← m.buildClass (Naming.className name "") (← asClass base)
    [("__module__", .value (.str World.mcpModule)), ("__doc__", .value doc),
      ("definition", .value definition),
      ("helper_class", .value (World.classValue (.made helperClass))),
      ("call", .ofClass (.serves definition helperClass indent toolName))]
  let cls := World.classValue (.made n)
  let schema ← m.servedSchema definition
  m.publish cls definition (pure toolName)
  let (properties, required) ← schemaFields schema
  let _ ← m.send cls "input_schema" [] [("properties", properties), ("required", required)]
  Run.note adaptersLogger 10 (do
    let keys ← m.printed (.list ((Table.keys schema.properties).map .str))
    return "Materialized MCP tool " ++ toolName ++ " (properties=" ++ keys ++ ", required=" ++
      (← m.printed required) ++ ")")
  return cls

theorem adaptMcp_eq (m : Machine) (definition base config : Value) :
    m.adaptMcp definition base config = (do
      let base ← requireHost mcpHost base "MCP tool host" "tool_forge.hosts.mcp"
      m.adaptServed definition base (← m.indentOf config)) := by
  unfold adaptMcp indentOf
  refine bind_congr fun base => ?_
  rw [bind_assoc]
  refine bind_congr fun truth => ?_
  cases truth <;> rfl

theorem find?_helperAttributes {D : Definition Stored}
    (hi : (Table.keys D.instanceHelpers).Nodup) (hc : (Table.keys D.classHelpers).Nodup)
    (key : String) : Table.find? (Table.ofRows (helperRowsOf D)) key =
      (Table.find? [("__module__", Attribute.value (.str World.mcpModule))] key).or
        (D.free? [] key) := by
  unfold helperRowsOf withAttributes
  rw [Table.ofRows_of_nodup (Table.nodup_keys_ofRows _), Table.find?_ofRows_append,
    Definition.find?_freeRows [] hi hc, Table.ofRows_of_nodup (by simp [Table.keys])]

theorem of_buildHelpers {m : Machine} {name : String} {x : Except Fault Nat}
    (hi : (Table.keys D.instanceHelpers).Nodup) (hc : (Table.keys D.classHelpers).Nodup)
    (hr : (m.buildClass name (.builtIn .object) (helperRowsOf D)).exec w = (x, v)) :
    (v = w ∧ (∀ n, x ≠ .ok n) ∧ Hosted x) ∨ x = .ok w.classes.length ∧
      v = w.withClass (builtClass w name (.builtIn .object) (helperRowsOf D)) ∧
      ∃ own, v.ClassAt w.classes.length name (.builtIn .object) own ∧
        World.HelperAttributes D own := by
  have hroot : w.Rooted (.builtIn .object) := by
    intro n hn
    simp [World.lineage, World.above] at hn
  have hfind := find?_helperAttributes hi hc
  have hnone (key : String) (hk : key ≠ "__module__") (x : Value) :
      Table.find? (Table.ofRows (helperRowsOf D)) key ≠ some (.value x) := by
    rw [hfind, Table.find?_cons, if_neg hk.symm]
    exact free?_ne_value D [] key x
  refine (of_buildUntold hroot (fun k a => World.find?_builtIn_ne_made w .object _ k a)
    (hnone _ (by decide)) (hnone _ (by decide)) hr).imp_right ?_
  rintro ⟨rfl, rfl⟩
  refine ⟨rfl, rfl, _, w.classAt_withClass (builtClass w name (.builtIn .object) (helperRowsOf D))
    hroot rfl rfl, fun key hk => ?_, Definition.covers_builtClass (by simp)⟩
  have hmodule : "__module__" ≠ key := by
    rintro rfl
    exact hk (by decide)
  rw [find?_builtClass hk, hfind, Table.find?_cons, if_neg hmodule]
  rfl

/-- What a definition was adapted to: a tool of a serving host, and right before it the class of its
helpers. -/
structure ServedTool (w : World) (n : Nat) (b : ClassRef) (p : Draft) (D : Definition Stored)
    (indent : Value) (text : String) (s : InputSchema) (C : Nat → Prop) : Prop where
  helpers : ∃ own, w.ClassAt n (Naming.className text "Helpers") (.builtIn .object) own ∧
    World.HelperAttributes D own
  tool : ∃ own q properties, w.ClassAt (n + 1) (Naming.className text "") b own ∧
    World.ServedAttributes D p n indent text q.object own ∧ w.SchemaAt q properties s.required C ∧
    Table.keys properties = Table.keys s.properties ∧ w.Exposes w q s

theorem of_noteServed {m : Machine} {cls R : Value} {x : Except Fault Value} {keys : List String}
    {text : String} (hd : w.HoldsData C) (hR : R.Within (w.data C))
    (hr : Run.exec (do
      Run.note adaptersLogger 10 (do
        let keys ← m.printed (.list (keys.map .str))
        return "Materialized MCP tool " ++ text ++ " (properties=" ++ keys ++ ", required=" ++
          (← m.printed R) ++ ")")
      return cls) w = (x, v)) : w.Noted v ∧ Hosted x ∧ ∀ a, x = .ok a → a = cls := by
  have hkeys : (Value.list (keys.map .str)).Within (w.data C) := by
    refine Value.withinItems_iff.mpr fun x hx => ?_
    obtain ⟨name, _, rfl⟩ := List.mem_map.mp hx
    trivial
  have hmessage : ∃ r, Run.exec (do
      let keys ← m.printed (.list (keys.map .str))
      return "Materialized MCP tool " ++ text ++ " (properties=" ++ keys ++ ", required=" ++
        (← m.printed R) ++ ")") w = (r, w) ∧ Hosted r := by
    rw [Run.exec_bind, exec_printed m hd hkeys]
    cases ht : w.printedOf (.list (keys.map .str)) with
    | error f => exact ⟨_, rfl, (w.hosted_printedOf _).of_eq ht⟩
    | ok keys =>
      dsimp only
      rw [Run.exec_bind, exec_printed m hd hR]
      cases ht : w.printedOf R with
      | error f => exact ⟨_, rfl, (w.hosted_printedOf _).of_eq ht⟩
      | ok text => exact ⟨_, rfl, .ok _⟩
  obtain ⟨r, hmessage, hosted⟩ := hmessage
  rcases Run.exec_bind_cases hr with ⟨f, rfl, hnote⟩ | ⟨_, u, hnote, hr⟩
  · have noted : Hosted ((Run.note adaptersLogger 10 _).exec w).1 := hosted_note hmessage hosted
    rw [hnote] at noted
    exact ⟨of_note hmessage hnote, noted.error, fun _ h => by cases h⟩
  · have hnoted := of_note hmessage hnote
    cases hr
    refine ⟨hnoted, .ok _, fun a ha => ?_⟩
    cases ha
    rfl

/-- A class that was made takes the name, the description and the parameters of a definition, these as
its input schema. -/
def furnishServed (m : Machine) (definition : Value) (toolName : String) (n : Nat) : Run Value := do
  let cls := World.classValue (.made n)
  let schema ← m.servedSchema definition
  m.publish cls definition (pure toolName)
  let (properties, required) ← schemaFields schema
  let _ ← m.send cls "input_schema" [] [("properties", properties), ("required", required)]
  Run.note adaptersLogger 10 (do
    let keys ← m.printed (.list ((Table.keys schema.properties).map .str))
    return "Materialized MCP tool " ++ toolName ++ " (properties=" ++ keys ++ ", required=" ++
      (← m.printed required) ++ ")")
  return cls

/-- What a definition is to be adapted to is made as a class behind the class of its helpers, whatever
stands above it; or nothing has changed. -/
theorem adaptServed_reaches (k : Nat) (h : w.Declares p D C) {b : ClassRef} {indent : Value}
    {x : Except Fault Value}
    (hr : ((nested (k + 3)).adaptServed p.value (World.classValue b) indent).exec w = (x, v)) :
    (v = w ∧ Hosted x ∧ ∀ cls, x ≠ .ok cls) ∨ ∃ u text own,
      w.textOf D.name = .ok text ∧
      u = w.withClass (builtClass w (Naming.className text "Helpers") (.builtIn .object)
        (helperRowsOf D)) ∧
      u.ClassAt w.classes.length (Naming.className text "Helpers") (.builtIn .object) own ∧
      World.HelperAttributes D own ∧ Run.exec (do
        let n ← (nested (k + 3)).buildClass (Naming.className text "") b
          (servedRows D.description p w.classes.length indent text)
        (nested (k + 3)).furnishServed p.value text n) u = (x, v) := by
  unfold adaptServed at hr
  rw [Run.exec_bind, exec_nameText _ h] at hr
  cases htext : w.textOf D.name with
  | error f =>
    rw [htext] at hr
    cases hr
    exact .inl ⟨rfl, (World.hosted_textOf _ _).of_eq htext, fun _ h => by cases h⟩
  | ok text =>
  rw [htext] at hr
  dsimp only at hr
  rw [Run.exec_bind, exec_nameText _ h, htext] at hr
  dsimp only at hr
  rw [Run.exec_bind, exec_helpersOf _ h.toDrafts h.bundled] at hr
  dsimp only at hr
  have hattrs : (D.merged.map keptHelper).filterMap Helper.attribute? = D.freeRows [] := by
    rw [← D.attributes_kept []]
    congr 1
    exact (List.filter_eq_self.mpr fun h _ => by cases h.name? <;> rfl).symm
  rw [hattrs] at hr
  rcases Run.exec_bind_cases hr with ⟨f, rfl, hbuild⟩ | ⟨t, u, hbuild, hr⟩
  · obtain ⟨rfl, -, hosted⟩ | ⟨⟨⟩, -⟩ := of_buildHelpers h.instanceNames h.classNames hbuild
    exact .inl ⟨rfl, hosted.error, fun _ h => by cases h⟩
  obtain ⟨-, hnone, -⟩ | ⟨⟨⟩, hu, ownHelpers, hhelpers, hhelperAttributes⟩ :=
    of_buildHelpers h.instanceNames h.classNames hbuild
  · exact absurd rfl (hnone t)
  have hlu : w.Later u (fun _ => False) := hu ▸ w.later_withClass _
  have hdu := (h.unchanged hlu).declares
  rw [Run.exec_bind, exec_sendDescription (k + 2) hdu.toDrafts hdu.bundled] at hr
  dsimp only at hr
  have htextu : u.textOf D.name = .ok text := by
    rw [(hlu.retains h.data fun _ _ => id).textOf h.data (h.values _ List.mem_cons_self).1, htext]
  rw [Run.exec_bind, exec_nameText _ hdu, htextu] at hr
  dsimp only at hr
  rw [Run.exec_bind, show (asClass (World.classValue b)).exec u = (.ok b, u) from rfl] at hr
  exact .inr ⟨u, text, ownHelpers, rfl, hu, hhelpers, hhelperAttributes, hr⟩

/-- A definition that is adapted becomes two new classes, which have taken over what the definition
declared. Where that fails, nothing has changed that was there before. -/
theorem adaptServed_cases (k : Nat) (h : w.Declares p D C) {b : ClassRef} (hbase : w.ServingBase b)
    {indent : Value} {x : Except Fault Value}
    (hr : ((nested (k + 3)).adaptServed p.value (World.classValue b) indent).exec w = (x, v)) :
    w.Later v (fun _ => False) ∧ Hosted x ∧ ∀ cls, x = .ok cls → ∃ text s C',
      cls = World.classValue (.made (w.classes.length + 1)) ∧
      w.textOf D.name = .ok text ∧ w.servedSchema D.params = .ok s ∧ v.HoldsData C' ∧
      (∀ n, C n → C' n) ∧ (∀ n, C' n → C n ∨ w.cells.length ≤ n) ∧
      (∀ n, v.HasSchemaCell (w.classes.length + 1) n → w.cells.length ≤ n) ∧
      ServedTool v w.classes.length b p D indent text s C' := by
  rcases adaptServed_reaches k h hr with
    ⟨rfl, hosted, hno⟩ | ⟨u, text, ownHelpers, htext, hu, hhelpers, hhelperAttributes, hr⟩
  · exact ⟨World.Later.refl v _, hosted, fun cls hcls => absurd hcls (hno cls)⟩
  have hlu : w.Later u (fun _ => False) := hu ▸ w.later_withClass _
  have hdu := (h.unchanged hlu).declares
  have hbu := hlu.servingBase hbase
  have hret := hlu.retains h.data fun _ _ => id
  let rows := servedRows D.description p w.classes.length indent text
  have hrows (key : String) : Table.find? (Table.ofRows rows) key = Table.find? rows key := by
    rw [Table.ofRows_of_nodup (by simp [rows, Table.keys, servedRows])]
  have built {x : Except Fault Nat} {u₁ : World}
      (hbuild : ((nested (k + 3)).buildClass (Naming.className text "") b rows).exec u = (x, u₁)) :=
    of_buildUntold hbu.rooted hbu.untold
      (fun x => by rw [hrows]; simp [rows, servedRows, Table.find?_cons, Table.find?_nil])
      (fun x => by rw [hrows]; simp [rows, servedRows, Table.find?_cons, Table.find?_nil]) hbuild
  rcases Run.exec_bind_cases hr with ⟨f, rfl, hbuild⟩ | ⟨n, u₁, hbuild, hr⟩
  · obtain ⟨rfl, -, hosted⟩ | ⟨⟨⟩, -⟩ := built hbuild
    exact ⟨hlu, hosted.error, fun _ h => by cases h⟩
  obtain ⟨-, hnone, -⟩ | ⟨⟨⟩, hu₁⟩ := built hbuild
  · exact absurd rfl (hnone n)
  have hlen : u.classes.length = w.classes.length + 1 := by
    rw [hu, World.withClass, List.length_append]
    rfl
  rw [hlen] at hr
  have hlu₁ : u.Later u₁ (fun _ => False) := hu₁ ▸ u.later_withClass _
  have hl₁ : w.Later u₁ (fun _ => False) := hlu.trans hlu₁ fun _ hn _ => hn
  have hcls : u₁.ClassAt (w.classes.length + 1) (Naming.className text "") b
      (Table.find? (builtClass u (Naming.className text "") b rows).attributes) := by
    rw [hu₁, ← hlen]
    exact u.classAt_withClass _ hbu.rooted rfl rfl
  have hown (key : String) (hk : key ∉ ClassPlan.standing) :
      Table.find? (builtClass u (Naming.className text "") b rows).attributes key =
        (Table.find? rows key).map fun a => (ClassPlan.settle (key, a)).2 := by
    rw [find?_builtClass hk, hrows]
  have hd₁ := (h.unchanged hl₁).declares
  unfold furnishServed at hr
  rw [Run.exec_bind, exec_servedSchema _ hd₁] at hr
  cases hs : u₁.servedSchema D.params with
  | error f =>
    rw [hs] at hr
    cases hr
    exact ⟨hl₁, (World.hosted_servedSchema _ _).of_eq hs, fun _ h => by cases h⟩
  | ok s =>
  rw [hs] at hr
  dsimp only at hr
  have hmethods : ∀ row ∈ servingMethods,
      Table.find? (builtClass u (Naming.className text "") b rows).attributes row.1 = none := by
    intro row hrow
    have hplain : row.1 ∉ ClassPlan.standing ∧
        row.1 ∉ ["__module__", "__doc__", "definition", "helper_class", "call"] := by
      revert row
      decide
    rw [hown _ hplain.1, Table.find?_eq_none hplain.2]
    rfl
  have hdescription : Table.find? (builtClass u (Naming.className text "") b rows).attributes
      "_description" = none := by
    rw [hown _ (by decide)]
    rfl
  obtain ⟨u₃, own, hpublished, _, hlu₃, hcls₃, hname₃, hdesc₃, hrest₃⟩ :=
    exec_publish (k + 2) .servedName hdu hlu₁ (Nat.le_of_eq hlen) hcls hbu.toHasMethods hmethods
      (by decide) hdescription (by decide) (by decide) (by decide)
      (show (pure text : Run String).exec u₁ = (.ok text, u₁) from rfl)
  rw [Run.exec_bind, hpublished] at hr
  dsimp only at hr
  have hl₃ : w.Later u₃ (fun _ => False) := hlu.trans hlu₃ fun _ hn _ => hn
  have hd₃ := (h.unchanged hl₃).declares
  have hret₃ := hl₃.retains h.data fun _ _ => id
  have hroot : u₃.Rooted (.made (w.classes.length + 1)) :=
    hcls₃.rooted (hl₃.rooted hbase.rooted)
  have hkeep : ∀ row ∈ servingMethods, row.1 ∉ ["_name", "_description"] := by decide
  have hfind : ∃ k, u₃.find? (.made (w.classes.length + 1)) "input_schema" =
      some (k, .ofClass (.bundled (.host .inputSchema))) := by
    obtain ⟨holder, hf⟩ := (hcls₃.hasMethods (hl₃.hasMethods hbase.toHasMethods) fun row hrow =>
      (hrest₃ row.1 (hkeep row hrow)).trans (hmethods row hrow)).finds
        ("input_schema", .inputSchema) (by decide)
    exact ⟨_, hf⟩
  have hspecs : ∀ spec ∈ D.params, ∀ x ∈ spec.values, x.Within (w.data C) := fun spec hs x hx =>
    (h.values x (List.mem_cons_of_mem _ (List.mem_cons_of_mem _
      (List.mem_flatMap.mpr ⟨spec, hs, hx⟩)))).1
  have hs₁ : w.servedSchema D.params = .ok s := by
    rw [← hs, (hl₁.retains h.data fun _ _ => id).servedSchema h.data hspecs]
  obtain ⟨rows', hrows', hproperties, _⟩ := World.of_servedSchema hs₁
  have hwithinw := World.within_servedSchema
    (fun spec hs => hspecs spec hs _ (by simp [ParamSpec.values])) hs₁
  have hwithin := hwithinw.mono hret₃.data_below
  have hnodup : (Table.keys s.properties).Nodup := by
    rw [hproperties]
    exact Table.nodup_keys_ofRows _
  obtain ⟨P, R, u₄, u₅, q, C', properties, hshared, hsent, ⟨u', hl', hu₅⟩, hC', hC, hnew, hR, hschema,
    hown₅, hkeys, hexposed⟩ := exec_giveSchema k hd₃.bundled hd₃.data hwithin hnodup hroot hfind
  rw [Run.exec_bind, hshared] at hr
  dsimp only at hr
  rw [Run.exec_bind, hsent] at hr
  obtain ⟨hnoted, hosted, hmade'⟩ := of_noteServed hC' hR hr
  have hlu₅ : u.Later u₅ (fun _ => False) := by
    rw [hu₅]
    exact (hlu₃.trans hl' fun _ hn _ => hn).setAttribute (Nat.le_of_eq hlen) _ _
  have hlast : u₅.Later v (fun _ => False) := hnoted.later _
  have hluv : u.Later v (fun _ => False) := hlu₅.trans hlast fun _ hn _ => hn
  have hlv : w.Later v (fun _ => False) := hlu.trans hluv fun _ hn _ => hn
  have hretv := hlast.retains hC' fun _ _ => id
  have hcls₅ : u₅.ClassAt (w.classes.length + 1) (Naming.className text "") b (fun key =>
      if "_input_schema" = key then some (.value (objectValue q.object)) else own key) := by
    rw [hu₅]
    exact (hl'.classAt hcls₃ (hl₃.rooted hbase.rooted)).set _ _
  have hmade (key : String) (hk : key ∉ ["_name", "_description", "_input_schema"])
      (hs : key ∉ ClassPlan.standing) : (if "_input_schema" = key then
        some (Attribute.value (objectValue q.object)) else own key) =
          (Table.find? rows key).map fun a => (ClassPlan.settle (key, a)).2 := by
    simp only [List.mem_cons, List.not_mem_nil, or_false, not_or] at hk
    rw [if_neg (Ne.symm hk.2.2), hrest₃ key (by simp [hk.1, hk.2.1]), hown key hs]
  refine ⟨hlv, hosted, fun cls hcls => ?_⟩
  obtain rfl := hmade' cls hcls
  refine ⟨text, s, C', rfl, htext, hs₁, hretv.holdsData hC', hC,
    fun n hn => (hnew n hn).imp_right fun hle => Nat.le_trans hl₃.cells_le hle, ?_, ?_⟩
  · rintro n ⟨o, ho, obj, hobj, hcell⟩
    rw [(hlast.classAt hcls₅ (hlu₅.rooted hbu.rooted)).own?, if_pos rfl] at ho
    cases ho
    have hat := (hlast.schemaAt hschema id fun _ _ => id).object.object
    cases hat.symm.trans hobj
    cases hcell
    exact Nat.le_trans hl₃.cells_le hown₅
  refine ⟨⟨ownHelpers, hluv.classAt hhelpers fun n hn => ?_, hhelperAttributes⟩, ?_⟩
  · simp [World.lineage, World.above] at hn
  · refine ⟨_, q, properties, hlast.classAt hcls₅ (hlu₅.rooted hbu.rooted), ?_,
      hlast.schemaAt hschema id fun _ _ => id, hkeys, ?_⟩
    · exact {
        name := (if_neg (by decide)).trans hname₃
        description := by
          rw [if_neg (by decide)]
          exact hdesc₃
        schema := if_pos rfl
        definition := hmade "definition" (by decide) (by decide)
        helperClass := hmade "helper_class" (by decide) (by decide)
        call := hmade "call" (by decide) (by decide)
        others := by
          intro key hs hk
          simp only [List.mem_cons, List.not_mem_nil, or_false, not_or] at hk
          rw [hmade key (by simp [hk.1, hk.2.1, hk.2.2.1]) hs, Table.find?_eq_none]
          · rfl
          · simp only [ClassPlan.standing, List.mem_cons, List.not_mem_nil, or_false, not_or] at hs
            simp [rows, Table.keys, servedRows, hk, hs] }
    · have hretw := hlv.retains h.data fun _ _ => id
      have hnames : (Value.list (s.required.map .str)).Within (w.data C) := by
        refine Value.withinItems_iff.mpr fun x hx => ?_
        obtain ⟨name, _, rfl⟩ := List.mem_map.mp hx
        trivial
      exact ⟨by rw [hretv.exposed hC' (show (cellValue q.properties).Within _ from hschema.data.1),
          hexposed.properties, hret₃.exposed h.data hwithinw, hretw.exposed h.data hwithinw],
        by rw [hretv.exposed hC' (show (cellValue q.required).Within _ from hschema.data.2),
          hexposed.required, hret₃.exposed h.data hnames, hretw.exposed h.data hnames]⟩

theorem of_adaptServed (k : Nat) (h : w.Declares p D C) {b : ClassRef} (hbase : w.ServingBase b)
    {indent cls : Value}
    (hr : ((nested (k + 3)).adaptServed p.value (World.classValue b) indent).exec w =
      (.ok cls, v)) :
    ∃ text s C', cls = World.classValue (.made (w.classes.length + 1)) ∧
      w.textOf D.name = .ok text ∧ w.servedSchema D.params = .ok s ∧
      w.Later v (fun _ => False) ∧ v.HoldsData C' ∧
      (∀ n, C n → C' n) ∧ (∀ n, C' n → C n ∨ w.cells.length ≤ n) ∧
      ServedTool v w.classes.length b p D indent text s C' := by
  obtain ⟨hl, -, hdone⟩ := adaptServed_cases k h hbase hr
  obtain ⟨text, s, C', hcls, htext, hs, hd, hC, hnew, -, htool⟩ := hdone cls rfl
  exact ⟨text, s, C', hcls, htext, hs, hl, hd, hC, hnew, htool⟩

end Machine

end Toolwright
