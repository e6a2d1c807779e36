import Toolwright.Proofs.Adaptation.Course
import Toolwright.Proofs.Publication.Told

/-!
# What classes of hosts tell

A class of a host tells its name, its description and its parameters or its input schema. What it
tells was declared on it, is plain data, and depends on nothing else but the name of the class.
-/

namespace Toolwright

set_option autoImplicit false

namespace World

variable {w v : World} {n : Nat} {name description : Value} {C : Nat → Prop} {s : Shelf}
  {t : ParameterTable}

/-- The name of a class: the one that it was given, or else the one made from its class name. -/
def titleOf (w : World) (className : String) (given : Value) : Value :=
  if w.truthOf given then given else .str (Naming.toolName className)

/-- A value, or the empty text in place of one that does not count as true. -/
def orBlank (w : World) (x : Value) : Value := if w.truthOf x then x else .str ""

/-- A class that tells the name and the description that were declared on it. -/
structure Titled (w : World) (n : Nat) (name description : Value) (C : Nat → Prop) : Prop where
  tellsName : ∃ k, ∃ f ∈ Machine.naming,
    w.find? (.made n) "tool_name" = some (.made k, .ofClass (.bundled (.host f)))
  tellsDescription : ∃ k,
    w.find? (.made n) "description" = some (.made k, .ofClass (.bundled (.host .description)))
  ownName : Describes (w.own? (.made n) "_name") name
  ownDescription : Describes (w.own? (.made n) "_description") description
  data : name.Within (w.data C) ∧ description.Within (w.data C)

theorem HasMethods.reaches {c : ClassRef} {methods : List (String × HostMethod)}
    (h : w.HasMethods c methods) {name : String} {method : HostMethod}
    (hm : (name, method) ∈ methods) :
    ∃ k, w.find? c name = some (k, .ofClass (.bundled (.host method))) := by
  obtain ⟨k, hk⟩ := h.finds _ hm
  exact ⟨_, hk⟩

theorem titleOf_within (className : String) (h : name.Within (w.data C)) :
    (w.titleOf className name).Within (w.data C) := by
  unfold titleOf
  split
  · exact h
  · trivial

theorem orBlank_within (h : name.Within (w.data C)) : (w.orBlank name).Within (w.data C) := by
  unfold orBlank
  split
  · exact h
  · trivial

theorem orEmpty_within (h : name.Within (w.data C)) : (orEmpty name).Within (w.data C) := by
  unfold orEmpty
  split
  · exact h
  · trivial

end World

namespace Machine

variable {w v : World} {n : Nat} {key : String} {x name description : Value} {C : Nat → Prop}

theorem exec_ownValue (h : World.Describes (w.own? (.made n) key) x) :
    (ownValue (.made n) key).exec w = (.ok x, w) := by
  unfold ownValue
  rw [Run.exec_bind, Run.exec_world]
  dsimp only
  rcases h with h | ⟨h, rfl⟩ <;> rw [h]
  · rfl
  · rfl

theorem exec_orEmpty (m : Machine) (hd : w.HoldsData C) (hx : x.Within (w.data C)) :
    (m.orEmpty x).exec w = (.ok (w.orBlank x), w) := by
  unfold orEmpty World.orBlank
  rw [Run.exec_bind, exec_truthy m hd hx]
  cases w.truthOf x <;> rfl

theorem exec_toolNameOf (m : Machine) (hd : w.HoldsData C)
    (hn : World.Describes (w.own? (.made n) "_name") name) (hx : name.Within (w.data C)) :
    (m.toolNameOf (.made n)).exec w = (.ok (w.titleOf (w.className (.made n)) name), w) := by
  unfold toolNameOf World.titleOf
  rw [Run.exec_bind, exec_ownValue hn]
  dsimp only
  rw [Run.exec_bind, exec_truthy _ hd hx]
  cases w.truthOf name <;> rfl

theorem exec_sendName (k : Nat) (hd : w.HoldsData C) (h : w.Titled n name description C) :
    ((nested (k + 1)).send (World.classValue (.made n)) "tool_name" [] []).exec w =
      (.ok (w.titleOf (w.className (.made n)) name), w) := by
  have told := exec_toolNameOf (nested k) hd h.ownName h.data.1
  obtain ⟨holder, f, hf, hfind⟩ := h.tellsName
  have hclass : f ∉ ofObjects := by
    revert hf
    cases f <;> decide
  rw [exec_sendMethod k ⟨by decide, by decide⟩ hclass ⟨_, hfind⟩]
  simp only [naming, List.mem_cons, List.not_mem_nil, or_false] at hf
  rcases hf with rfl | rfl <;> exact told

theorem exec_sendOwnDescription (k : Nat) (h : w.Titled n name description C) :
    ((nested (k + 1)).send (World.classValue (.made n)) "description" [] []).exec w =
      (.ok description, w) := by
  obtain ⟨holder, hfind⟩ := h.tellsDescription
  rw [exec_sendMethod k ⟨by decide, by decide⟩ (by decide) ⟨_, hfind⟩]
  exact exec_ownValue h.ownDescription

end Machine

/-! ## Classes of function-calling hosts -/

/-- What was declared on a class of a function-calling host. -/
structure FunctionCard where
  name : Value
  description : Value
  parameters : ParameterTable

/-- The fields of parameters under their names. -/
def ParameterTable.records (t : ParameterTable) : List (String × List Value) :=
  t.map fun row => (row.1, row.2.values)

/-- The values of a card are plain data. -/
structure FunctionCard.IsData (card : FunctionCard) (w : World) (C : Nat → Prop) : Prop where
  name : card.name.Within (w.data C)
  description : card.description.Within (w.data C)
  parameters : ∀ p ∈ card.parameters, ∀ x ∈ p.2.values, x.Within (w.data C)

def parametersDocument (properties : Named) (required : List String) : Value :=
  .ofRows ([("type", .str "object"), ("properties", .ofRows properties)] ++
    if required.isEmpty then [] else [("required", .list (required.map .str))])

namespace World

variable {w v : World} {n : Nat} {C : Nat → Prop} {s : Shelf} {t : ParameterTable}
  {card : FunctionCard}

/-- A class of a function-calling host, with what was declared on it. -/
structure FunctionHost (w : World) (n : Nat) (card : FunctionCard) (s : Shelf) (C : Nat → Prop) :
    Prop extends w.Titled n card.name card.description C where
  methods : w.HasMethods (.made n) functionMethods
  parameters : ∃ k, w.find? (.made n) "_parameters" = some (.made k, .value (cellValue s.cell))
  shelf : w.Shelves s card.parameters C

theorem FunctionHost.isData (h : w.FunctionHost n card s C) : card.IsData w C :=
  ⟨h.data.1, h.data.2, fun p hp x hx => (h.shelf.values p hp x hx).1⟩

/-- A parameter as it is published: the text of its type, and its description if that counts as
true. -/
def describedOf (w : World) (p : Parameter) : Except Fault Parameter := do
  return ⟨p.name, .str (← w.textOf p.type),
    if w.truthOf p.description then p.description else .null, .bool (w.truthOf p.required)⟩

def propertiesOf (w : World) (t : ParameterTable) : Except Fault Named :=
  t.mapM fun row => do return (row.2.name, ← w.propertyOf row.2.type row.2.description)

def requiredOf (w : World) (t : ParameterTable) : List String :=
  ((t.map (·.2)).filter (w.truthOf ·.required)).map (·.name)

def schemaOf (w : World) (t : ParameterTable) : Except Fault Value := do
  let rows ← w.propertiesOf t
  return parametersDocument (Table.ofRows rows) (w.requiredOf t)

theorem propertySchema_described {p q : Parameter} (h : w.describedOf p = .ok q) :
    propertySchema q.type q.description = w.propertyOf p.type p.description := by
  obtain ⟨text, ht, h⟩ := of_bind_ok h
  cases h
  unfold propertyOf
  rw [ht]
  cases hd : w.truthOf p.description with
  | false => rfl
  | true =>
    show propertySchema (.str text) p.description = _
    unfold propertySchema
    rw [truthy_of_truthOf hd]
    rfl

theorem propertiesFrom_described (t : ParameterTable) (done : Named) :
    (t.mapM fun row => w.describedOf row.2) >>= ParameterTable.propertiesFrom done =
      (w.propertiesOf t).map fun rows =>
        rows.foldl (fun t row => Table.insert row.1 row.2 t) done := by
  unfold propertiesOf
  induction t generalizing done with
  | nil => rfl
  | cons row t ih =>
    rw [List.mapM_cons, List.mapM_cons]
    cases hq : w.describedOf row.2 with
    | error f =>
      have hp : w.propertyOf row.2.type row.2.description = .error f := by
        unfold describedOf at hq
        unfold propertyOf
        cases ht : w.textOf row.2.type with
        | error g =>
          rw [ht] at hq
          cases hq
          rfl
        | ok text =>
          rw [ht] at hq
          cases hq
      rw [hp]
      rfl
    | ok q =>
      have hname : q.name = row.2.name := by
        obtain ⟨text, -, h⟩ := of_bind_ok hq
        cases h
        rfl
      have hproperty := propertySchema_described hq
      have rest := fun property => ih (Table.insert row.2.name property done)
      cases hp : w.propertyOf row.2.type row.2.description with
      | error f =>
        obtain ⟨text, ht, -⟩ := of_bind_ok hq
        unfold propertyOf at hp
        rw [ht] at hp
        cases hp
      | ok property =>
        rw [hp] at hproperty
        have rest := ih (Table.insert row.2.name property done)
        cases hps : t.mapM fun row => w.describedOf row.2 with
        | error f =>
          rw [hps] at rest
          show Except.error f = _
          cases hrows : t.mapM fun row : String × Parameter => do
            return (row.2.name, ← w.propertyOf row.2.type row.2.description) with
          | error g =>
            rw [hrows] at rest
            exact rest
          | ok rows =>
            rw [hrows] at rest
            cases rest
        | ok ps =>
          rw [hps] at rest
          show ParameterTable.propertiesFrom done (q :: ps) = _
          rw [ParameterTable.propertiesFrom, hproperty, hname]
          refine rest.trans ?_
          cases t.mapM fun row : String × Parameter => do
            return (row.2.name, ← w.propertyOf row.2.type row.2.description) <;> rfl

theorem requiredNames_described {ps : List Parameter}
    (h : (t.mapM fun row => w.describedOf row.2) = .ok ps) :
    ParameterTable.requiredNames (ps.map fun p => (p.name, p)) = w.requiredOf t := by
  unfold ParameterTable.requiredNames requiredOf
  rw [List.map_map, show (fun x : String × Parameter => x.2) ∘ (fun p : Parameter => (p.name, p)) = id from rfl,
    List.map_id]
  induction t generalizing ps with
  | nil =>
    cases h
    rfl
  | cons row t ih =>
    obtain ⟨q, rest, hq, hrest, rfl⟩ := of_mapM_cons_ok h
    obtain ⟨text, -, hq⟩ := of_bind_ok hq
    cases hq
    have hrest := ih hrest
    have htrue : (Value.bool (w.truthOf row.2.required)).truthy = w.truthOf row.2.required := rfl
    simp only [List.map_cons, List.filter_cons, htrue]
    split
    · rw [List.map_cons, List.map_cons, hrest]
    · exact hrest

theorem schemaOf_eq (w : World) (t : ParameterTable) : w.schemaOf t = (do
    ParameterTable.schema ((← t.mapM fun row => w.describedOf row.2).map fun p => (p.name, p))) := by
  have properties := propertiesFrom_described (w := w) t []
  unfold schemaOf
  cases hps : t.mapM fun row => w.describedOf row.2 with
  | error f =>
    rw [hps] at properties
    cases hrows : w.propertiesOf t with
    | error g =>
      rw [hrows] at properties
      cases properties
      rfl
    | ok rows =>
      rw [hrows] at properties
      cases properties
  | ok ps =>
    rw [hps] at properties
    have hmap : (ps.map fun p => (p.name, p)).map (·.2) = ps := by
      rw [List.map_map]
      exact List.map_id ps
    show _ = ParameterTable.schema _
    unfold ParameterTable.schema ParameterTable.properties
    rw [hmap, requiredNames_described hps]
    cases hrows : w.propertiesOf t with
    | error g =>
      rw [hrows] at properties
      rw [show ParameterTable.propertiesFrom [] ps = .error g from properties]
      rfl
    | ok rows =>
      rw [hrows] at properties
      rw [show ParameterTable.propertiesFrom [] ps = .ok (Table.ofRows rows) from properties]
      rfl

/-- What a class of a function-calling host publishes. -/
def functionDocument (w : World) (className : String) (card : FunctionCard) :
    Except Fault Value := do
  let parameters ← w.schemaOf card.parameters
  return functionSchema (w.titleOf className card.name) (w.orBlank card.description) parameters

theorem ParameterAt.inside? (hb : w.Bundled) {row : String × Nat × Nat} {p : String × Parameter}
    (h : w.ParameterAt row p) :
    w.inside? (.object row.2.1) = some (.ok (.record .toolParameter p.2.values)) :=
  ObjectAt.inside? hb (by decide) h.object rfl

theorem Shelves.withinItems (h : w.Shelves s t C) {p : String × Parameter} (hp : p ∈ t) :
    Value.WithinItems (w.data C) p.2.values :=
  Value.withinItems_iff.mpr fun x hx => (h.values p hp x hx).1

theorem records_within (h : ∀ p ∈ t, ∀ x ∈ p.2.values, x.Within (w.data C)) :
    ∀ row ∈ t.records, Value.WithinItems (w.data C) row.2 := by
  intro row hr
  obtain ⟨p, hp, rfl⟩ := List.mem_map.mp hr
  exact Value.withinItems_iff.mpr (h p hp)

theorem Shelves.encloses (h : w.Shelves s t C) (hb : w.Bundled) (hd : w.HoldsData C) :
    w.Encloses fun o => o.Within (w.data C) ∨ ∃ row ∈ s.rows, o = .object row.2.1 where
  inside o x ho hx := by
    rcases ho with ho | ⟨row, hr, rfl⟩
    · exact (hd.encloses.inside o x ho hx).mono fun _ => .inl
    · obtain ⟨p, hp, hat⟩ := forall₂_left h.rows hr
      rw [hat.inside? hb] at hx
      cases hx
      exact Value.WithinItems.refers (fun _ => .inl) (h.withinItems hp)
  solid o ho hx := by
    rcases ho with ho | ⟨row, hr, rfl⟩
    · exact hd.encloses.solid o ho hx
    · obtain ⟨p, hp, hat⟩ := forall₂_left h.rows hr
      exact .inr ⟨_, (List.getElem?_eq_some_iff.mp hat.object.object).1, rfl⟩

theorem Shelves.exposed (h : w.Shelves s t C) (hb : w.Bundled) (hd : w.HoldsData C) :
    w.exposed (.ofRows (objectRows s.rows)) = w.exposed (.dict (recordRows .toolParameter t.records)) := by
  have rows {xs : List (String × Nat × Nat)} {ps : ParameterTable}
      (hrows : List.Forall₂ w.ParameterAt xs ps) (hps : ∀ p ∈ ps, p ∈ t) :
      w.exposedRows ((objectRows xs).map fun row => (.str row.1, row.2)) =
        w.exposedRows (recordRows .toolParameter ps.records) := by
    induction hrows with
    | nil => rfl
    | @cons row p xs ps hat _ ih =>
      have hobject : w.exposed (objectValue row.2.1) =
          w.exposed (.record .toolParameter p.2.values) :=
        hd.encloses.exposed_reference (o := .object row.2.1) id (hat.inside? hb)
          (Value.WithinItems.refers (fun _ => id) (h.withinItems (hps p List.mem_cons_self)))
      have hrest := ih fun p hp => hps p (List.mem_cons_of_mem _ hp)
      unfold recordRows ParameterTable.records at hrest ⊢
      show w.exposedRows ((.str row.1, objectValue row.2.1) ::
        (objectRows xs).map fun row => (.str row.1, row.2)) = _
      rw [List.map_cons, List.map_cons, exposedRows_cons, exposedRows_cons, hobject, hat.key, hrest]
  show w.exposed (.dict _) = _
  rw [exposed_dict, exposed_dict, rows h.rows fun _ => id]

end World

namespace Machine

variable {w v : World} {n : Nat} {C : Nat → Prop} {s : Shelf} {t : ParameterTable}
  {card : FunctionCard}

theorem exec_describedParameter (m : Machine) (hb : w.Bundled) (hd : w.HoldsData C)
    {row : String × Nat × Nat} {p : String × Parameter} (h : w.ParameterAt row p)
    (hx : ∀ x ∈ p.2.values, x.Within (w.data C)) :
    (m.describedParameter (objectValue row.2.1)).exec w =
      ((w.describedOf p.2).map fun q => (.str q.name, { q with name := "" }), w) := by
  have ask (field : String) {x : Value}
      (hp : Session.start.isPlain (.made 6) field = true)
      (hfield : Table.find? p.2.fields field = some x) :
      (m.ask (objectValue row.2.1) field).exec w = (.ok x, w) :=
    exec_askSet m h.object hb (by decide) (by decide) hp hfield
  unfold describedParameter World.describedOf
  rw [Run.exec_bind, ask "type" (by decide) rfl]
  dsimp only
  rw [Run.exec_bind, exec_text m hd (hx _ (by simp [Parameter.values]))]
  cases w.textOf p.2.type with
  | error f => rfl
  | ok type =>
    dsimp only
    rw [Run.exec_bind, ask "description" (by decide) rfl]
    dsimp only
    rw [Run.exec_bind, exec_truthy m hd (hx _ (by simp [Parameter.values]))]
    have rest (description : Value) : Run.exec (do
        let name ← m.ask (objectValue row.2.1) "name"
        let _ ← m.hashOf name
        let required ← m.truthy (← m.ask (objectValue row.2.1) "required")
        return (name, (⟨"", .str type, description, .bool required⟩ : Parameter))) w =
        (.ok (.str p.2.name, ⟨"", .str type, description, .bool (w.truthOf p.2.required)⟩), w) := by
      rw [Run.exec_bind, ask "name" (by decide) rfl]
      dsimp only
      rw [Run.exec_bind, show (m.hashOf (.str p.2.name)).exec w =
        (.ok (Value.hash? (.str p.2.name)), w) from rfl]
      dsimp only
      rw [Run.exec_bind, ask "required" (by decide) rfl]
      dsimp only
      rw [Run.exec_bind, exec_truthy m hd (hx _ (by simp [Parameter.values]))]
      rfl
    dsimp only
    cases w.truthOf p.2.description with
    | false => exact rest .null
    | true => exact rest p.2.description

theorem exec_parameterSchema (m : Machine) (hb : w.Bundled) (hd : w.HoldsData C)
    (h : w.FunctionHost n card s C) :
    (m.parameterSchema (.made n)).exec w = (w.schemaOf card.parameters, w) := by
  have described {xs : List (String × Nat × Nat)} {ps : ParameterTable}
      (hrows : List.Forall₂ w.ParameterAt xs ps) (hps : ∀ p ∈ ps, p ∈ card.parameters) :
      ((xs.map fun row => objectValue row.2.1).mapM m.describedParameter).exec w =
        ((ps.mapM fun row => w.describedOf row.2).map
          (List.map fun q => (.str q.name, { q with name := "" })), w) := by
    induction hrows with
    | nil => rfl
    | @cons row p xs ps hat _ ih =>
      rw [List.map_cons, List.mapM_cons, List.mapM_cons, Run.exec_bind, exec_describedParameter m hb hd
        hat fun x hx => (h.shelf.values p (hps p List.mem_cons_self) x hx).1]
      cases w.describedOf p.2 with
      | error f => rfl
      | ok q =>
        dsimp only [Except.map]
        rw [Run.exec_bind, ih fun p hp => hps p (List.mem_cons_of_mem _ hp)]
        cases List.mapM (fun row : String × Parameter => w.describedOf row.2) ps <;> rfl
  have values : (m.valuesOf (cellValue s.cell)).exec w =
      (.ok (s.rows.map fun row => objectValue row.2.1), w) := by
    unfold valuesOf
    rw [Run.exec_bind, Run.exec_look, World.followed_cell h.shelf.cell]
    simp [Value.ofRows, Value.rows?, objectRows, Function.comp_def, Run.exec]
    rfl
  rw [World.schemaOf_eq]
  unfold parameterSchema
  rw [Run.exec_bind, exec_parametersOf m h.parameters]
  dsimp only
  rw [Run.exec_bind, values]
  dsimp only
  rw [Run.exec_bind, described h.shelf.rows fun _ => id]
  cases card.parameters.mapM fun row => w.describedOf row.2 with
  | error f => rfl
  | ok ps =>
    dsimp only [Except.map]
    have named : (ps.map fun q => (Value.str q.name, { q with name := "" })).mapM tableRow? =
        some (ps.map fun q => (q.name, q)) := by
      induction ps with
      | nil => rfl
      | cons q ps ih =>
        rw [List.map_cons, List.mapM_cons, ih]
        rfl
    rw [named]
    exact Run.exec_lift _ _

end Machine

namespace Run

variable {w v : World} {C : Nat → Prop}

/-- What a computation comes to that gives plain data made of a value, or fails and leaves nothing. -/
inductive Gives (w : World) (C : Nat → Prop) : Except Fault Value → Except Fault Value × World → Prop
  | ok {v : World} {x z : Value} (hx : x.Within (w.data C)) (h : Shares w v C x z) :
    Gives w C (.ok x) (.ok z, v)
  | error (f : Fault) : Gives w C (.error f) (.error f, w)

theorem Gives.told (hd : w.HoldsData C) {r : Except Fault Value} {out : Except Fault Value × World}
    (h : Gives w C r out) : out.1.bind (Answer.ofValue out.2) = r.bind (Answer.ofValue w) := by
  cases h with
  | ok hx h => exact Answer.ofValue_data hd hx h.exposed
  | error f => rfl

theorem share_gained (hg : w.Gains C v) {x y : Value} (hx : x.Within (v.data (w.gained C v)))
    (he : v.exposed x = w.exposed y) :
    ∃ z u, (share x).exec v = (.ok z, u) ∧ Shares w u C y z := by
  obtain ⟨z, u, hrun, hs⟩ := exec_share hg.data hx
  obtain ⟨hg', below⟩ := hg.trans hs.gains
  exact ⟨z, u, hrun, hg', hs.data.mono below, hs.exposed.trans he⟩

end Run

namespace World

variable {w v : World} {n : Nat} {C : Nat → Prop} {s : Shelf} {t : ParameterTable}
  {card : FunctionCard}

theorem propertiesOf_within {rows : Named} (hd : ∀ p ∈ t, p.2.description.Within (w.data C))
    (h : w.propertiesOf t = .ok rows) : ∀ row ∈ rows, row.2.Within (w.data C) := by
  unfold propertiesOf at h
  induction t generalizing rows with
  | nil =>
    cases h
    simp
  | cons p t ih =>
    obtain ⟨row, rest, hrow, hrest, rfl⟩ := of_mapM_cons_ok h
    obtain ⟨property, hproperty, hrow⟩ := of_bind_ok hrow
    cases hrow
    intro row hr
    rcases List.mem_cons.mp hr with rfl | hr
    · exact within_property (hd p List.mem_cons_self) hproperty
    · exact ih (fun p hp => hd p (List.mem_cons_of_mem _ hp)) hrest row hr

theorem schemaOf_within (h : ∀ p ∈ t, ∀ x ∈ p.2.values, x.Within (w.data C)) {x : Value}
    (hx : w.schemaOf t = .ok x) : x.Within (w.data C) := by
  obtain ⟨rows, hrows, hx⟩ := of_bind_ok hx
  cases hx
  have hwithin := propertiesOf_within
    (fun p hp => h p hp _ (by simp [Parameter.values])) hrows
  have htexts (names : List String) : Value.WithinItems (w.data C) (names.map .str) :=
    Value.withinItems_iff.mpr fun x hx => by
      obtain ⟨name, -, rfl⟩ := List.mem_map.mp hx
      trivial
  unfold parametersDocument
  split
  · exact ⟨⟨trivial, trivial⟩, ⟨trivial, within_ofRows hwithin⟩, trivial⟩
  · exact ⟨⟨trivial, trivial⟩, ⟨trivial, within_ofRows hwithin⟩, ⟨trivial, htexts _⟩, trivial⟩

theorem functionDocument_within (h : card.IsData w C) {className : String} {x : Value}
    (hx : w.functionDocument className card = .ok x) : x.Within (w.data C) := by
  obtain ⟨parameters, hp, hx⟩ := of_bind_ok hx
  cases hx
  exact ⟨⟨trivial, titleOf_within _ h.name⟩,
    ⟨trivial, orEmpty_within (orBlank_within h.description)⟩,
    ⟨trivial, schemaOf_within h.parameters hp⟩, trivial⟩

end World

namespace Machine

variable {w v : World} {n : Nat} {C : Nat → Prop} {s : Shelf} {t : ParameterTable}
  {card : FunctionCard}

theorem exec_sendSchema_share (k : Nat) (hb : w.Bundled) (hd : w.HoldsData C)
    (h : w.FunctionHost n card s C) :
    ((nested (k + 2)).send (World.classValue (.made n)) "to_json_schema" [] []).exec w =
      Run.exec (do Run.share (← Run.lift (w.functionDocument (w.className (.made n)) card))) w := by
  have hfind := h.methods.reaches
    (show ("to_json_schema", HostMethod.functionSchema) ∈ functionMethods by decide)
  rw [exec_sendMethod (k + 1) ⟨by decide, by decide⟩ (by decide) hfind]
  show Run.exec (do
    let parameters ← (nested (k + 1)).parameterSchema (.made n)
    let name ← (nested (k + 1)).sendClass (.made n) "tool_name" [] []
    let description ← (nested (k + 1)).orEmpty
      (← (nested (k + 1)).sendClass (.made n) "description" [] [])
    Run.share (functionSchema name description parameters)) w = _
  unfold World.functionDocument
  rw [Run.exec_bind, exec_parameterSchema _ hb hd h]
  cases w.schemaOf card.parameters with
  | error f => rfl
  | ok parameters =>
    dsimp only
    rw [Run.exec_bind, show (sendClass _ _ _ _ _).exec w = _ from exec_sendName k hd h.toTitled]
    dsimp only
    rw [Run.exec_bind, show (sendClass _ _ _ _ _).exec w = _ from exec_sendOwnDescription k h.toTitled]
    dsimp only
    rw [Run.exec_bind, exec_orEmpty _ hd h.data.2]
    rfl

theorem exec_sendSchema (k : Nat) (hb : w.Bundled) (hd : w.HoldsData C)
    (h : w.FunctionHost n card s C) :
    Run.Gives w C (w.functionDocument (w.className (.made n)) card)
      (((nested (k + 2)).send (World.classValue (.made n)) "to_json_schema" [] []).exec w) := by
  rw [exec_sendSchema_share k hb hd h, Run.exec_bind, Run.exec_lift]
  cases hx : w.functionDocument (w.className (.made n)) card with
  | error f => exact .error f
  | ok x =>
    have hwithin := World.functionDocument_within h.isData hx
    obtain ⟨z, v, hrun, hshares⟩ := Run.exec_share hd hwithin
    dsimp only
    rw [hrun]
    exact .ok hwithin hshares

theorem exec_sendEntry_share (k : Nat) (h : w.FunctionHost n card s C) :
    ((nested (k + 3)).send (World.classValue (.made n)) "to_openai_schema" [] []).exec w =
      Run.exec (do
        Run.share (functionEntry
          (← (nested (k + 2)).send (World.classValue (.made n)) "to_json_schema" [] []))) w := by
  have hfind := h.methods.reaches
    (show ("to_openai_schema", HostMethod.functionEntry) ∈ functionMethods by decide)
  rw [exec_sendMethod (k + 2) ⟨by decide, by decide⟩ (by decide) hfind]
  rfl

theorem exec_sendEntry (k : Nat) (hb : w.Bundled) (hd : w.HoldsData C)
    (h : w.FunctionHost n card s C) :
    Run.Gives w C ((w.functionDocument (w.className (.made n)) card).map functionEntry)
      (((nested (k + 3)).send (World.classValue (.made n)) "to_openai_schema" [] []).exec w) := by
  rw [exec_sendEntry_share k h]
  have given := exec_sendSchema k hb hd h
  rw [Run.exec_bind]
  generalize ((nested (k + 2)).send (World.classValue (.made n)) "to_json_schema" [] []).exec w = out
    at given ⊢
  generalize w.functionDocument (w.className (.made n)) card = document at given ⊢
  cases given with
  | error f => exact .error f
  | @ok v x z hx hs =>
    have hz : (functionEntry z).Within (v.data (w.gained C v)) :=
      ⟨⟨trivial, trivial⟩, ⟨trivial, hs.data⟩, trivial⟩
    have he : v.exposed (functionEntry z) = w.exposed (functionEntry x) := by
      show v.exposed (.dict _) = w.exposed (.dict _)
      rw [World.exposed_dict, World.exposed_dict]
      show (do return Value.dict (← v.exposedRows [(.str "type", .str "function"),
        (.str "function", z)])) = (do return Value.dict (← w.exposedRows
          [(.str "type", .str "function"), (.str "function", x)]))
      simp only [World.exposedRows_cons, World.exposedRows_nil, World.exposed_str, hs.exposed]
    obtain ⟨z', v', hrun, hs'⟩ := Run.share_gained hs.gains hz he
    dsimp only
    rw [hrun]
    exact .ok (show (functionEntry x).Within (w.data C) from
      ⟨⟨trivial, trivial⟩, ⟨trivial, hx⟩, trivial⟩) hs'

theorem exec_sendParameters (k : Nat) (hb : w.Bundled) (h : w.FunctionHost n card s C) :
    ((nested (k + 2)).send (World.classValue (.made n)) "parameters" [] []).exec w =
      (.ok (cellValue w.cells.length), w.withCell (.ofRows (objectRows s.rows))) := by
  have hfind := h.methods.reaches
    (show ("parameters", HostMethod.parameters) ∈ functionMethods by decide)
  have hkeys : (Table.keys (objectRows s.rows)).Nodup := by
    have hsame : Table.keys (objectRows s.rows) = Table.keys card.parameters := by
      rw [← h.shelf.keys_eq]
      simp [Table.keys, objectRows]
    exact hsame ▸ h.shelf.names
  rw [exec_sendMethod (k + 1) ⟨by decide, by decide⟩ (by decide) hfind]
  show Run.exec (do
    (nested (k + 1)).copyRows (← (nested (k + 1)).parametersOf (.made n))) w = _
  rw [Run.exec_bind, exec_parametersOf _ h.parameters]
  exact exec_copyRows k hkeys h.shelf.cell hb.places

end Machine

/-- What a class of a function-calling host is asked for. -/
inductive FunctionGetter where
  | title | description | parameters | schema | entry

/-- The name under which it is asked for. -/
def FunctionGetter.attribute : FunctionGetter → String
  | .title => "tool_name"
  | .description => "description"
  | .parameters => "parameters"
  | .schema => "to_json_schema"
  | .entry => "to_openai_schema"

def World.functionTells (w : World) (className : String) (card : FunctionCard) :
    FunctionGetter → Except Fault Answer
  | .title => Answer.ofValue w (w.titleOf className card.name)
  | .description => Answer.ofValue w card.description
  | .parameters => Answer.ofValue w (.dict (World.recordRows .toolParameter card.parameters.records))
  | .schema => (w.functionDocument className card).bind (Answer.ofValue w)
  | .entry => ((w.functionDocument className card).map functionEntry).bind (Answer.ofValue w)

namespace World

variable {w v : World} {n : Nat} {C : Nat → Prop} {s : Shelf} {t : ParameterTable}
  {card : FunctionCard}

/-- The new table of the parameters of a class is told as the records of their fields. -/
theorem FunctionHost.told_parameters (h : w.FunctionHost n card s C) (hb : w.Bundled)
    (hd : w.HoldsData C) :
    Answer.ofValue (w.withCell (.ofRows (objectRows s.rows))) (cellValue w.cells.length) =
      Answer.ofValue w (.dict (recordRows .toolParameter card.parameters.records)) := by
  let u := w.withCell (.ofRows (objectRows s.rows))
  have hl : w.Later u (fun _ => False) := (Later.refl w _).newCell _
  have hr : w.Retains u C := hl.retains hd fun _ _ => id
  have hbu : u.Bundled := hl.bundled hb
  have hdu : u.HoldsData C := hr.holdsData hd
  have hshelf : u.Shelves s card.parameters C := hl.shelves h.shelf hd (fun _ _ => id) fun _ _ => id
  have refers : (Value.ofRows (objectRows s.rows)).Refers fun o =>
      o.Within (u.data C) ∨ ∃ row ∈ s.rows, o = .object row.2.1 := by
    have rows (xs : List (String × Nat × Nat)) (hxs : ∀ row ∈ xs, row ∈ s.rows) :
        Value.RefersRows (fun o => o.Within (u.data C) ∨ ∃ row ∈ s.rows, o = .object row.2.1)
          ((objectRows xs).map fun row => (.str row.1, row.2)) := by
      induction xs with
      | nil => trivial
      | cons row xs ih =>
        exact ⟨⟨trivial, .inr ⟨row, hxs row List.mem_cons_self, rfl⟩⟩,
          ih fun row hr => hxs row (List.mem_cons_of_mem _ hr)⟩
    exact rows s.rows fun _ => id
  have hcell : u.exposed (cellValue w.cells.length) = u.exposed (.ofRows (objectRows s.rows)) := by
    refine (hshelf.encloses hbu hdu).exposed_reference (o := .place (.cell w.cells.length)) ?_ ?_ refers
    · rintro (hc | ⟨row, -, hc⟩)
      · exact absurd (hd.lt hc) (Nat.lt_irrefl _)
      · cases hc
    · show some (Except.ok ((u.cells[w.cells.length]?).getD .null)) = _
      rw [show u.cells[w.cells.length]? = _ from getElem?_withCell w _]
      rfl
  have hrecords := records_within h.isData.parameters
  refine Answer.ofValue_records (by rintro n name ⟨⟩) hd hrecords ?_
  rw [show u.exposed (cellValue w.cells.length) = _ from hcell, hshelf.exposed hbu hdu,
    exposed_dict, exposed_dict, hr.exposedRecords hd hrecords]

theorem Retains.titleOf (h : w.Retains v C) (hd : w.HoldsData C) {name : Value}
    (hx : name.Within (w.data C)) (className : String) :
    v.titleOf className name = w.titleOf className name := by
  unfold World.titleOf
  rw [h.truthOf hd hx]

theorem Retains.orBlank (h : w.Retains v C) (hd : w.HoldsData C) {x : Value}
    (hx : x.Within (w.data C)) : v.orBlank x = w.orBlank x := by
  unfold World.orBlank
  rw [h.truthOf hd hx]

theorem Retains.propertiesOf (h : w.Retains v C) (hd : w.HoldsData C)
    (hx : ∀ p ∈ t, ∀ x ∈ p.2.values, x.Within (w.data C)) :
    v.propertiesOf t = w.propertiesOf t := by
  unfold World.propertiesOf
  induction t with
  | nil => rfl
  | cons p t ih =>
    have hvalue {x : Value} (hm : x ∈ p.2.values) := hx p List.mem_cons_self x hm
    have hproperty : v.propertyOf p.2.type p.2.description =
        w.propertyOf p.2.type p.2.description := by
      unfold World.propertyOf
      rw [h.textOf hd (hvalue (x := p.2.type) (by simp [Parameter.values])),
        h.truthOf hd (hvalue (x := p.2.description) (by simp [Parameter.values]))]
    rw [List.mapM_cons, List.mapM_cons, hproperty,
      ih fun p hp => hx p (List.mem_cons_of_mem _ hp)]

theorem Retains.schemaOf (h : w.Retains v C) (hd : w.HoldsData C)
    (hx : ∀ p ∈ t, ∀ x ∈ p.2.values, x.Within (w.data C)) : v.schemaOf t = w.schemaOf t := by
  have hrequired : v.requiredOf t = w.requiredOf t := by
    unfold World.requiredOf
    refine congrArg _ (List.filter_congr fun p hp => ?_)
    obtain ⟨row, hr, rfl⟩ := List.mem_map.mp hp
    exact h.truthOf hd (hx row hr _ (by simp [Parameter.values]))
  unfold World.schemaOf
  rw [h.propertiesOf hd hx, hrequired]

theorem Retains.functionDocument (h : w.Retains v C) (hd : w.HoldsData C) (hx : card.IsData w C)
    (className : String) : v.functionDocument className card = w.functionDocument className card := by
  unfold World.functionDocument
  rw [h.schemaOf hd hx.parameters, h.titleOf hd hx.name, h.orBlank hd hx.description]

theorem Retains.ofValue (h : w.Retains v C) (hd : w.HoldsData C) {x : Value}
    (hx : x.Within (w.data C)) : Answer.ofValue v x = Answer.ofValue w x :=
  Answer.ofValue_data hd hx (h.exposed hd hx)

theorem Retains.functionTells (h : w.Retains v C) (hd : w.HoldsData C) (hx : card.IsData w C)
    (className : String) (g : FunctionGetter) :
    v.functionTells className card g = w.functionTells className card g := by
  cases g with
  | title =>
    show Answer.ofValue v _ = Answer.ofValue w _
    rw [h.titleOf hd hx.name]
    exact h.ofValue hd (titleOf_within _ hx.name)
  | description => exact h.ofValue hd hx.description
  | parameters =>
    have hrecords := records_within hx.parameters
    exact Answer.ofValue_records (by rintro n name ⟨⟩) hd hrecords (by
      rw [exposed_dict, exposed_dict, h.exposedRecords hd hrecords])
  | schema =>
    show (v.functionDocument className card).bind _ = (w.functionDocument className card).bind _
    rw [h.functionDocument hd hx]
    cases hdoc : w.functionDocument className card with
    | error f => rfl
    | ok x => exact h.ofValue hd (functionDocument_within hx hdoc)
  | entry =>
    show ((v.functionDocument className card).map _).bind _ =
      ((w.functionDocument className card).map _).bind _
    rw [h.functionDocument hd hx]
    cases hdoc : w.functionDocument className card with
    | error f => rfl
    | ok x =>
      exact h.ofValue hd (show (functionEntry x).Within (w.data C) from
        ⟨⟨trivial, trivial⟩, ⟨trivial, functionDocument_within hx hdoc⟩, trivial⟩)

theorem Titled.log {name description : Value} (h : w.Titled n name description C)
    (log : List Record) : World.Titled { w with log } n name description C :=
  ⟨h.tellsName, h.tellsDescription, h.ownName, h.ownDescription, h.data⟩

theorem FunctionHost.log (h : w.FunctionHost n card s C) (log : List Record) :
    World.FunctionHost { w with log } n card s C where
  toTitled := h.toTitled.log log
  methods := ⟨h.methods.rooted, h.methods.finds⟩
  parameters := h.parameters
  shelf := ⟨h.shelf.cell, h.shelf.rows.imp fun _ _ h => ⟨h.key, h.name, h.object.object, h.object.cell⟩,
    h.shelf.names, h.shelf.cells, h.shelf.apart, h.shelf.values⟩

end World

namespace Session

variable {w : World} {n : Nat} {C : Nat → Prop} {s : Shelf} {card : FunctionCard} {c : String}

theorem exec_getter {name : String} (hc : Table.find? w.classIds c = some (.made n)) :
    (machine.step (.callClass c name [] [])).exec w =
      ((Machine.nested 999).send (World.classValue (.made n)) name [] []).exec w := by
  rw [exec_callClass hc]
  unfold Machine.callAttribute Machine.send
  rw [Run.exec_bind, Run.exec_bind]
  cases ((Machine.nested 999).reach (World.classValue (.made n)) name).exec w with
  | mk r v => cases r <;> rfl

theorem outcome_getter {name : String} (hc : Table.find? w.classIds c = some (.made n))
    {r : Except Fault Value} {v : World}
    (h : ((Machine.nested 999).send (World.classValue (.made n)) name [] []).exec
      { w with log := [] } = (r, v)) :
    (perform w (.callClass c name [] [])).1.outcome = r.bind (Answer.ofValue v) := by
  have told : (perform w (.callClass c name [] [])).1.outcome =
      ((machine.step (.callClass c name [] [])).exec { w with log := [] }).1.bind
        (Answer.ofValue ((machine.step (.callClass c name [] [])).exec { w with log := [] }).2) := rfl
  rw [told, exec_getter (w := { w with log := [] }) hc, h]

theorem function_tells (hb : w.Bundled) (hd : w.HoldsData C) (h : w.FunctionHost n card s C)
    (hc : Table.find? w.classIds c = some (.made n)) (g : FunctionGetter) :
    (perform w (.callClass c g.attribute [] [])).1.outcome =
      w.functionTells (w.className (.made n)) card g := by
  let u : World := { w with log := [] }
  have hl : w.Later u (fun _ => False) := (World.Later.refl w _).log []
  have hr := hl.retains hd fun _ _ => id
  have hbu := hl.bundled hb
  have hdu := hr.holdsData hd
  have hu : u.FunctionHost n card s C := h.log []
  rw [← hr.functionTells hd h.isData]
  cases g with
  | title => exact outcome_getter hc (Machine.exec_sendName 998 hdu hu.toTitled)
  | description => exact outcome_getter hc (Machine.exec_sendOwnDescription 998 hu.toTitled)
  | parameters =>
    exact (outcome_getter hc (Machine.exec_sendParameters 997 hbu hu)).trans
      (hu.told_parameters hbu hdu)
  | schema => exact (outcome_getter hc rfl).trans ((Machine.exec_sendSchema 997 hbu hdu hu).told hdu)
  | entry => exact (outcome_getter hc rfl).trans ((Machine.exec_sendEntry 996 hbu hdu hu).told hdu)

end Session

end Toolwright
