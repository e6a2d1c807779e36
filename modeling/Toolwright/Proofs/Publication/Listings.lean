import Toolwright.Proofs.Publication.Getters

/-!
# What classes of serving hosts tell

A class of a serving host tells its name and its description, and an input schema: the one that was
declared on it, or else a new empty one.
-/

namespace Toolwright

set_option autoImplicit false

/-- What was declared on a class of a serving host, with the properties and the required names of its
schema if one was declared. -/
structure ServingCard where
  name : Value
  description : Value
  schema : Option (Value × Value)

/-- The properties and the required names, of which there are none unless they were declared. -/
def ServingCard.fields (card : ServingCard) : Value × Value :=
  card.schema.getD (.dict [], .list [])

structure ServingCard.IsData (card : ServingCard) (w : World) (C : Nat → Prop) : Prop where
  name : card.name.Within (w.data C)
  description : card.description.Within (w.data C)
  properties : card.fields.1.Within (w.data C)
  required : card.fields.2.Within (w.data C)

namespace World

variable {w v : World} {n o s : Nat} {C : Nat → Prop} {x y : Value} {card : ServingCard}

/-- The schema that a class keeps under an attribute: none, or a record of plain data. -/
inductive Schemed (w : World) (C : Nat → Prop) : Option Attribute → Option (Value × Value) → Prop
  | none : Schemed w C none none
  | null : Schemed w C (some (.value .null)) none
  | given {o s : Nat} {x y : Value} (hx : x.Within (w.data C)) (hy : y.Within (w.data C))
    (h : w.ObjectAt o Shape.inputSchema.cls s [("properties", x), ("required", y)]) :
    Schemed w C (some (.value (objectValue o))) (some (x, y))

/-- A class of a serving host, with what was declared on it. -/
structure ServingHost (w : World) (n : Nat) (card : ServingCard) (C : Nat → Prop) : Prop
    extends w.Titled n card.name card.description C where
  methods : w.HasMethods (.made n) servingMethods
  schema : w.Schemed C (w.own? (.made n) "_input_schema") card.schema

theorem ServingHost.isData (h : w.ServingHost n card C) : card.IsData w C := by
  have fields : card.fields.1.Within (w.data C) ∧ card.fields.2.Within (w.data C) := by
    have hs := h.schema
    unfold ServingCard.fields
    generalize w.own? (.made n) "_input_schema" = a at hs
    generalize card.schema = schema at hs ⊢
    cases hs with
    | none | null => exact ⟨trivial, trivial⟩
    | given hx hy => exact ⟨hx, hy⟩
  exact ⟨h.data.1, h.data.2, fields.1, fields.2⟩

theorem gains_emptySchema (hd : w.HoldsData C) :
    let u := w.withObjectOn Shape.inputSchema.cls [("properties", cellValue (w.cells.length + 1)),
      ("required", cellValue (w.cells.length + 2))] [.dict [], .list []]
    w.Gains C u ∧ u.exposed (cellValue (w.cells.length + 1)) = w.exposed (.dict []) ∧
      u.exposed (cellValue (w.cells.length + 2)) = w.exposed (.list []) ∧
      (cellValue (w.cells.length + 1)).Within (u.data (w.gained C u)) ∧
      (cellValue (w.cells.length + 2)).Within (u.data (w.gained C u)) := by
  intro u
  have hl : w.Later u (fun _ => False) := later_withObjectOn _ _ _ _
  have hr := hl.retains hd fun _ _ => id
  have hdu := hr.holdsData hd
  have hlen : u.cells.length = w.cells.length + 3 := by simp [u, withObjectOn]
  have hfirst : u.cells[w.cells.length + 1]? = some (.dict []) := by simp [u, withObjectOn]
  have hsecond : u.cells[w.cells.length + 2]? = some (.list []) := by simp [u, withObjectOn]
  have hgained (j : Nat) (hj : j < 3) : w.gained C u (w.cells.length + j) :=
    ⟨.inr (Nat.le_add_right _ _), by omega⟩
  have exposed {n : Nat} {x : Value} (hn : w.cells.length ≤ n) (h : u.cells[n]? = some x)
      (hx : x.Refers fun o => o.Within (u.data C)) : u.exposed (cellValue n) = u.exposed x := by
    refine hdu.encloses.exposed_reference (o := .place (.cell n)) ?_ ?_ hx
    · intro hc
      exact absurd (hd.lt hc) (Nat.not_lt_of_le hn)
    · show some (Except.ok ((u.cells[n]?).getD .null)) = _
      rw [h]
      rfl
  have below : (u.data C).Below (u.data (w.gained C u)) :=
    u.data_mono fun n hn => ⟨.inl hn, hdu.lt hn⟩
  refine ⟨⟨hl, ?_⟩, ?_, ?_, hgained 1 (by decide), hgained 2 (by decide)⟩
  · rintro n ⟨hn | hn, hlt⟩
    · obtain ⟨x, hx, hw⟩ := hdu n hn
      exact ⟨x, hx, hw.mono below⟩
    · obtain rfl | rfl | rfl :
          n = w.cells.length ∨ n = w.cells.length + 1 ∨ n = w.cells.length + 2 := by
        omega
      · exact ⟨.ofRows [("properties", cellValue (w.cells.length + 1)),
          ("required", cellValue (w.cells.length + 2))], by simp [u, withObjectOn],
          ⟨trivial, hgained 1 (by decide)⟩, ⟨trivial, hgained 2 (by decide)⟩, trivial⟩
      · exact ⟨_, hfirst, trivial⟩
      · exact ⟨_, hsecond, trivial⟩
  · rw [exposed (Nat.le_add_right _ _) hfirst trivial, exposed_dict, exposed_dict, exposedRows_nil,
      exposedRows_nil]
  · rw [exposed (Nat.le_add_right _ _) hsecond trivial, exposed_list, exposed_list,
      exposedItems_nil, exposedItems_nil]

/-- A world in which the schema of a class was asked for: an object that stands for what was
declared. -/
structure GivesSchema (w : World) (C : Nat → Prop) (fields : Value × Value) (o : Nat) (v : World) :
    Prop where
  gains : w.Gains C v
  object : ∃ s x y, v.ObjectAt o Shape.inputSchema.cls s [("properties", x), ("required", y)] ∧
    x.Within (v.data (w.gained C v)) ∧ y.Within (v.data (w.gained C v)) ∧
    v.exposed x = w.exposed fields.1 ∧ v.exposed y = w.exposed fields.2

end World

namespace Machine

variable {w v : World} {n o s : Nat} {C : Nat → Prop} {named : Named} {card : ServingCard}

theorem exec_truthyObject (m : Machine) (h : w.ObjectAt o n s named) (hb : w.Bundled) (hn : 2 ≤ n)
    (hn' : n < 9) : (m.truthy (objectValue o)).exec w = (.ok true, w) := by
  have hs (name : String) (hname : name ∈ World.untouched) :
      w.special? (objectValue o) name = none :=
    special?_none h.classOf (hb.untouched hn hn' hname)
  unfold truthy
  rw [Run.exec_bind, Run.exec_world]
  dsimp only
  rw [hs "__bool__" (by decide), hs "__len__" (by decide)]
  rfl

theorem exec_inputSchemaOf (k : Nat) (hb : w.Bundled) (hd : w.HoldsData C)
    (h : w.ServingHost n card C) : ∃ o v,
    ((nested (k + 2)).inputSchemaOf (.made n)).exec w = (.ok (objectValue o), v) ∧
      w.GivesSchema C card.fields o v := by
  have made : ∃ o v, ((nested (k + 2)).invoke (World.recordClass .inputSchema) [] []).exec w =
      (.ok (objectValue o), v) ∧ w.GivesSchema C (.dict [], .list []) o v := by
    obtain ⟨hg, hx, hy, hxw, hyw⟩ := World.gains_emptySchema hd
    exact ⟨_, _, exec_makePair k (by decide) hb rfl (by decide)
      (fun _ => ⟨_, rfl, rfl, rfl, rfl⟩) rfl rfl, hg, _, _, _, World.objectAt_withObjectOn _ _ _ _,
      hxw, hyw, hx, hy⟩
  have hs := h.schema
  unfold inputSchemaOf ownValue ServingCard.fields
  rw [Run.exec_bind, Run.exec_bind, Run.exec_world]
  dsimp only
  generalize w.own? (.made n) "_input_schema" = a at hs
  generalize card.schema = schema at hs ⊢
  cases hs with
  | none => exact made
  | null => exact made
  | @given o s x y hx hy hobj =>
    refine ⟨o, w, ?_, World.Gains.refl hd, s, x, y, hobj, hx.mono ((World.Gains.refl hd).below hd),
      hy.mono ((World.Gains.refl hd).below hd), rfl, rfl⟩
    show Run.exec (do
      if ← (nested (k + 2)).truthy (objectValue o) then return objectValue o
      else (nested (k + 2)).invoke (World.recordClass .inputSchema) [] []) w = _
    rw [Run.exec_bind, exec_truthyObject _ hobj hb (by decide) (by decide)]
    rfl

theorem exec_sendInputSchema (k : Nat) (hb : w.Bundled) (hd : w.HoldsData C)
    (h : w.ServingHost n card C) : ∃ o v,
    ((nested (k + 3)).send (World.classValue (.made n)) "input_schema" [] []).exec w =
      (.ok (objectValue o), v) ∧ w.GivesSchema C card.fields o v := by
  rw [exec_sendMethod (k + 2) ⟨by decide, by decide⟩ (by decide) (h.methods.reaches
    (show ("input_schema", HostMethod.inputSchema) ∈ servingMethods by decide))]
  exact exec_inputSchemaOf k hb hd h

theorem exec_sendDocument (k : Nat) (hb : w.Bundled) {x y : Value}
    (h : w.ObjectAt o Shape.inputSchema.cls s [("properties", x), ("required", y)]) :
    ((nested (k + 2)).send (objectValue o) "to_dict" [] []).exec w =
      (Run.share (schemaDocument x y)).exec w := by
  have hfind : w.find? (.made 7) "to_dict" =
      some (.made 7, .ofObject (.bundled (.record .inputSchema .document))) :=
    (hb.find? (by decide) (by decide) "to_dict").trans rfl
  have reached := exec_reachUnset (nested (k + 2)) h.classOf ((h.setAttribute? "to_dict").trans rfl)
    hfind ?_
  · unfold send
    rw [Run.exec_bind, show ((nested (k + 2)).reach (objectValue o) "to_dict").exec w = _ from reached]
    dsimp only
    show Run.exec (do
      let properties ← (nested (k + 1)).ask (objectValue o) "properties"
      Run.share (schemaDocument properties
        (← (nested (k + 1)).ask (objectValue o) "required"))) w = _
    rw [Run.exec_bind, exec_askSet _ h hb (by decide) (by decide) (by decide) rfl]
    dsimp only
    rw [Run.exec_bind, exec_askSet _ h hb (by decide) (by decide) (by decide) rfl]
  · intro name hname k x
    apply hb.untouched (by decide) (by decide)
    simp only [List.mem_cons, List.not_mem_nil, or_false] at hname
    rcases hname with rfl | rfl <;> decide

end Machine

namespace World

variable {w v : World} {n o : Nat} {C : Nat → Prop} {card : ServingCard} {fields : Value × Value}

def listingDocument (w : World) (className : String) (card : ServingCard) : Value :=
  listingEntry (w.titleOf className card.name) (w.orBlank card.description)
    (schemaDocument card.fields.1 card.fields.2)

theorem schemaDocument_within {x y : Value} (hx : x.Within (w.data C)) (hy : y.Within (w.data C)) :
    (schemaDocument x y).Within (w.data C) :=
  ⟨⟨trivial, trivial⟩, ⟨trivial, hx⟩, ⟨trivial, hy⟩, trivial⟩

theorem listingEntry_within {x y z : Value} (hx : x.Within (w.data C)) (hy : y.Within (w.data C))
    (hz : z.Within (w.data C)) : (listingEntry x y z).Within (w.data C) :=
  ⟨⟨trivial, hx⟩, ⟨trivial, orEmpty_within hy⟩, ⟨trivial, hz⟩, trivial⟩

theorem listingDocument_within (hx : card.IsData w C) (className : String) :
    (w.listingDocument className card).Within (w.data C) :=
  listingEntry_within (titleOf_within _ hx.name) (orBlank_within hx.description)
    (schemaDocument_within hx.properties hx.required)

theorem exposed_schemaDocument {x y x' y' : Value} (hx : v.exposed x = w.exposed x')
    (hy : v.exposed y = w.exposed y') :
    v.exposed (schemaDocument x y) = w.exposed (schemaDocument x' y') := by
  show v.exposed (.dict _) = w.exposed (.dict _)
  rw [exposed_dict, exposed_dict]
  show (do return Value.dict (← v.exposedRows [(.str "type", .str "object"),
      (.str "properties", x), (.str "required", y)])) =
    (do return Value.dict (← w.exposedRows [(.str "type", .str "object"),
      (.str "properties", x'), (.str "required", y')]))
  simp only [exposedRows_cons, exposedRows_nil, exposed_str, hx, hy]

theorem exposed_listingEntry {x y z z' : Value} (hx : v.exposed x = w.exposed x)
    (hy : v.exposed (orEmpty y) = w.exposed (orEmpty y)) (hz : v.exposed z = w.exposed z') :
    v.exposed (listingEntry x y z) = w.exposed (listingEntry x y z') := by
  show v.exposed (.dict _) = w.exposed (.dict _)
  rw [exposed_dict, exposed_dict]
  show (do return Value.dict (← v.exposedRows [(.str "name", x),
      (.str "description", orEmpty y), (.str "inputSchema", z)])) =
    (do return Value.dict (← w.exposedRows [(.str "name", x),
      (.str "description", orEmpty y), (.str "inputSchema", z')]))
  simp only [exposedRows_cons, exposedRows_nil, exposed_str, hx, hy, hz]

theorem GivesSchema.told (h : w.GivesSchema C fields o v) (hb : w.Bundled) (hd : w.HoldsData C)
    (hx : fields.1.Within (w.data C)) (hy : fields.2.Within (w.data C)) :
    Answer.ofValue v (objectValue o) =
      Answer.ofValue w (.record .inputSchema [fields.1, fields.2]) := by
  obtain ⟨s, x, y, hobj, hxw, hyw, hx', hy'⟩ := h.object
  have hinside : v.inside? (.object o) = some (.ok (.record .inputSchema [x, y])) :=
    ObjectAt.inside? (h.gains.later.bundled hb) (by decide) hobj rfl
  have hexposed : v.exposed (objectValue o) = v.exposed (.record .inputSchema [x, y]) :=
    h.gains.data.encloses.exposed_reference (o := .object o) id hinside
      ⟨hxw.refers fun _ => id, hyw.refers fun _ => id, trivial⟩
  have hitems : Value.WithinItems (w.data C) [fields.1, fields.2] := ⟨hx, hy, trivial⟩
  refine Answer.ofValue_record (by rintro n name ⟨⟩) hd hitems ?_
  rw [hexposed, exposed_record, exposed_record, exposedItems_cons, exposedItems_cons,
    exposedItems_cons, exposedItems_cons, exposedItems_nil, exposedItems_nil, hx', hy']

end World

namespace Machine

variable {w v : World} {n : Nat} {C : Nat → Prop} {card : ServingCard}

theorem exec_sendListing (k : Nat) (hb : w.Bundled) (hd : w.HoldsData C)
    (h : w.ServingHost n card C) :
    Run.Gives w C (.ok (w.listingDocument (w.className (.made n)) card))
      (((nested (k + 4)).send (World.classValue (.made n)) "to_dict" [] []).exec w) := by
  have hfind := h.methods.reaches
    (show ("to_dict", HostMethod.listing) ∈ servingMethods by decide)
  rw [exec_sendMethod (k + 3) ⟨by decide, by decide⟩ (by decide) hfind]
  show Run.Gives w C _ (Run.exec (do
    let name ← (nested (k + 3)).sendClass (.made n) "tool_name" [] []
    let description ← (nested (k + 3)).orEmpty
      (← (nested (k + 3)).sendClass (.made n) "description" [] [])
    let schema ← (nested (k + 3)).send
      (← (nested (k + 3)).sendClass (.made n) "input_schema" [] []) "to_dict" [] []
    Run.share (listingEntry name description schema)) w)
  have hx := h.isData
  rw [Run.exec_bind, show (sendClass _ _ _ _ _).exec w = _ from exec_sendName (k + 2) hd h.toTitled]
  dsimp only
  rw [Run.exec_bind, show (sendClass _ _ _ _ _).exec w = _ from
    exec_sendOwnDescription (k + 2) h.toTitled]
  dsimp only
  rw [Run.exec_bind, exec_orEmpty _ hd h.data.2]
  dsimp only
  obtain ⟨o, v, hsend, hgives⟩ := exec_sendInputSchema k hb hd h
  rw [Run.exec_bind, show (sendClass _ _ _ _ _).exec w = _ from hsend]
  dsimp only
  obtain ⟨s, x, y, hobj, hxw, hyw, hx', hy'⟩ := hgives.object
  obtain ⟨z, u, hrun, hs⟩ := Run.share_gained hgives.gains (World.schemaDocument_within hxw hyw)
    (World.exposed_schemaDocument hx' hy')
  rw [Run.exec_bind, exec_sendDocument (k + 1) (hgives.gains.later.bundled hb) hobj, hrun]
  dsimp only
  have below := hs.gains.below hd
  have kept {x : Value} (hx : x.Within (w.data C)) : u.exposed x = w.exposed x :=
    (hs.gains.retains hd).exposed hd hx
  have htitle := World.titleOf_within (w.className (.made n)) hx.name
  have hblank := World.orBlank_within hx.description
  have hempty := World.orEmpty_within hblank
  obtain ⟨z', v', hrun', hs'⟩ := Run.share_gained hs.gains
    (World.listingEntry_within (htitle.mono below) (hblank.mono below) hs.data)
    (World.exposed_listingEntry (kept htitle) (kept hempty) hs.exposed)
  rw [hrun']
  exact .ok (World.listingDocument_within hx _) hs'

end Machine

/-- What a class of a serving host is asked for. -/
inductive ServingGetter where
  | title | description | schema | listing

def ServingGetter.attribute : ServingGetter → String
  | .title => "tool_name"
  | .description => "description"
  | .schema => "input_schema"
  | .listing => "to_dict"

def World.servingTells (w : World) (className : String) (card : ServingCard) :
    ServingGetter → Except Fault Answer
  | .title => Answer.ofValue w (w.titleOf className card.name)
  | .description => Answer.ofValue w card.description
  | .schema => Answer.ofValue w (.record .inputSchema [card.fields.1, card.fields.2])
  | .listing => Answer.ofValue w (w.listingDocument className card)

namespace World

variable {w v : World} {n : Nat} {C : Nat → Prop} {card : ServingCard}

theorem Retains.listingDocument (h : w.Retains v C) (hd : w.HoldsData C) (hx : card.IsData w C)
    (className : String) : v.listingDocument className card = w.listingDocument className card := by
  unfold World.listingDocument
  rw [h.titleOf hd hx.name, h.orBlank hd hx.description]

theorem Retains.servingTells (h : w.Retains v C) (hd : w.HoldsData C) (hx : card.IsData w C)
    (className : String) (g : ServingGetter) :
    v.servingTells className card g = w.servingTells className card g := by
  cases g with
  | title =>
    show Answer.ofValue v _ = Answer.ofValue w _
    rw [h.titleOf hd hx.name]
    exact h.ofValue hd (titleOf_within _ hx.name)
  | description => exact h.ofValue hd hx.description
  | schema =>
    have hitems : Value.WithinItems (w.data C) [card.fields.1, card.fields.2] :=
      ⟨hx.properties, hx.required, trivial⟩
    exact Answer.ofValue_record (by rintro n name ⟨⟩) hd hitems (by
      rw [exposed_record, exposed_record, h.exposedItems hd hitems])
  | listing =>
    show Answer.ofValue v _ = Answer.ofValue w _
    rw [h.listingDocument hd hx]
    exact h.ofValue hd (listingDocument_within hx _)

theorem ServingHost.log (h : w.ServingHost n card C) (log : List Record) :
    World.ServingHost { w with log } n card C where
  toTitled := h.toTitled.log log
  methods := ⟨h.methods.rooted, h.methods.finds⟩
  schema := by
    have hs := h.schema
    show World.Schemed { w with log } C (w.own? (.made n) "_input_schema") card.schema
    generalize w.own? (.made n) "_input_schema" = a at hs ⊢
    generalize card.schema = schema at hs ⊢
    cases hs with
    | none => exact .none
    | null => exact .null
    | given hx hy hobj => exact .given hx hy ⟨hobj.object, hobj.cell⟩

end World

namespace Session

variable {w : World} {n : Nat} {C : Nat → Prop} {card : ServingCard} {c : String}

theorem serving_tells (hb : w.Bundled) (hd : w.HoldsData C) (h : w.ServingHost n card C)
    (hc : Table.find? w.classIds c = some (.made n)) (g : ServingGetter) :
    (perform w (.callClass c g.attribute [] [])).1.outcome =
      w.servingTells (w.className (.made n)) card g := by
  let u : World := { w with log := [] }
  have hl : w.Later u (fun _ => False) := (World.Later.refl w _).log []
  have hr := hl.retains hd fun _ _ => id
  have hbu := hl.bundled hb
  have hdu := hr.holdsData hd
  have hu : u.ServingHost n card C := h.log []
  rw [← hr.servingTells hd h.isData]
  cases g with
  | title => exact outcome_getter hc (Machine.exec_sendName 998 hdu hu.toTitled)
  | description => exact outcome_getter hc (Machine.exec_sendOwnDescription 998 hu.toTitled)
  | schema =>
    obtain ⟨o, v, hsend, hgives⟩ := Machine.exec_sendInputSchema 996 hbu hdu hu
    exact (outcome_getter hc hsend).trans
      (hgives.told hbu hdu hu.isData.properties hu.isData.required)
  | listing => exact (outcome_getter hc rfl).trans ((Machine.exec_sendListing 995 hbu hdu hu).told hdu)

end Session

end Toolwright
