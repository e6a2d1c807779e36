import Toolwright.Proofs.Publication.Kept

/-!
# What definitions tell

A definition tells its description, all that it holds, its one line, the input schema of its parameters
and the helpers that a host would take over. What it tells is what was declared of it, and it is told
alike in every world in which the definition stands as it was declared.
-/

namespace Toolwright

set_option autoImplicit false

namespace World

variable {w v : World} {C : Nat → Prop} {x x' : Value}

/-! ## Values that are told alike -/

/-- Two values, each in a world of its own, expose the same, of which the same is told. -/
structure ToldAs (w v : World) (x x' : Value) : Prop where
  exposed : v.exposed x' = w.exposed x
  parts : ∀ y, w.exposed x = .ok y →
    ∀ name name', Answer.ofParts v name' y = Answer.ofParts w name y

theorem ToldAs.ofValue (h : w.ToldAs v x x') : Answer.ofValue v x' = Answer.ofValue w x := by
  unfold Answer.ofValue
  rw [h.exposed]
  cases hy : w.exposed x with
  | error f => rfl
  | ok y => exact h.parts y hy _ _

theorem HoldsData.toldAs (hd : w.HoldsData C) (hx : x.Within (w.data C))
    {u u' : World} {z z' : Value} (hz : u.exposed z = w.exposed x)
    (hz' : u'.exposed z' = w.exposed x) : u.ToldAs u' z z' where
  exposed := hz'.trans hz.symm
  parts _ hy _ _ := Answer.ofParts_bare (hd.exposed hx (hz.symm.trans hy))

theorem Retains.toldAs (h : w.Retains v C) (hd : w.HoldsData C) (hx : x.Within (w.data C)) :
    w.ToldAs v x x :=
  hd.toldAs hx rfl (h.exposed hd hx)

theorem HoldsData.toldAs_record (hd : w.HoldsData C) {s : Shape} (hs : Answer.Unanswering s)
    {xs : List Value} (hx : Value.WithinItems (w.data C) xs)
    {u u' : World} {z z' : Value} (hz : u.exposed z = w.exposed (.record s xs))
    (hz' : u'.exposed z' = w.exposed (.record s xs)) : u.ToldAs u' z z' where
  exposed := hz'.trans hz.symm
  parts y hy _ _ := by
    rw [hz, exposed_record] at hy
    obtain ⟨ys, hys, hy⟩ := of_bind_ok hy
    cases hy
    exact Answer.ofParts_record hs (hd.exposedItems hx hys)

theorem toldAs_text (w v : World) (text : String) : w.ToldAs v (.str text) (.str text) where
  exposed := (exposed_str v text).trans (exposed_str w text).symm
  parts _ hy _ _ := by
    rw [exposed_str] at hy
    cases hy
    rfl

theorem toldAs_bool (w v : World) (b : Bool) : w.ToldAs v (.bool b) (.bool b) where
  exposed := (exposed_bool v b).trans (exposed_bool w b).symm
  parts _ hy _ _ := by
    rw [exposed_bool] at hy
    cases hy
    rfl

section Parts

variable {xs xs' : List Value} {rows rows' : Named}

theorem toldAs_items (h : List.Forall₂ (w.ToldAs v) xs xs') :
    v.exposedItems xs' = w.exposedItems xs ∧ ∀ ys, w.exposedItems xs = .ok ys →
      ∀ name name', Answer.ofItems v name' ys = Answer.ofItems w name ys := by
  induction h with
  | nil =>
    refine ⟨(exposedItems_nil v).trans (exposedItems_nil w).symm, fun ys hys _ _ => ?_⟩
    rw [exposedItems_nil] at hys
    cases hys
    rfl
  | @cons x x' xs xs' hx _ ih =>
    refine ⟨by rw [exposedItems_cons, exposedItems_cons, hx.exposed, ih.1], fun ys hys name name' => ?_⟩
    rw [exposedItems_cons] at hys
    obtain ⟨y, hy, hys⟩ := of_bind_ok hys
    obtain ⟨rest, hrest, hys⟩ := of_bind_ok hys
    cases hys
    rw [Answer.ofItems, Answer.ofItems, hx.parts y hy, ih.2 rest hrest]

theorem toldAs_list (h : List.Forall₂ (w.ToldAs v) xs xs') : w.ToldAs v (.list xs) (.list xs') where
  exposed := by rw [exposed_list, exposed_list, (toldAs_items h).1]
  parts y hy name name' := by
    rw [exposed_list] at hy
    obtain ⟨ys, hys, hy⟩ := of_bind_ok hy
    cases hy
    rw [Answer.ofParts, Answer.ofParts, (toldAs_items h).2 ys hys]

theorem toldAs_tuple (h : List.Forall₂ (w.ToldAs v) xs xs') :
    w.ToldAs v (.tuple xs) (.tuple xs') where
  exposed := by rw [exposed_tuple, exposed_tuple, (toldAs_items h).1]
  parts y hy name name' := by
    rw [exposed_tuple] at hy
    obtain ⟨ys, hys, hy⟩ := of_bind_ok hy
    cases hy
    rw [Answer.ofParts, Answer.ofParts, (toldAs_items h).2 ys hys]

theorem toldAs_texts (w v : World) (texts : List String) :
    w.ToldAs v (.list (texts.map .str)) (.list (texts.map .str)) :=
  toldAs_list (List.forall₂_map_left_iff.mpr (List.forall₂_map_right_iff.mpr
    (List.forall₂_same.mpr fun text _ => toldAs_text w v text)))

theorem toldAs_named (h : List.Forall₂ (fun row row' => row'.1 = row.1 ∧ w.ToldAs v row.2 row'.2)
    rows rows') : w.ToldAs v (.ofRows rows) (.ofRows rows') := by
  have told : v.exposedRows (rows'.map fun row => (.str row.1, row.2)) =
        w.exposedRows (rows.map fun row => (.str row.1, row.2)) ∧
      ∀ ys, w.exposedRows (rows.map fun row => (.str row.1, row.2)) = .ok ys →
        ∀ name name', Answer.ofRows v name' ys = Answer.ofRows w name ys := by
    induction h with
    | nil =>
      refine ⟨(exposedRows_nil v).trans (exposedRows_nil w).symm, fun ys hys _ _ => ?_⟩
      rw [List.map_nil, exposedRows_nil] at hys
      cases hys
      rfl
    | @cons row row' rows rows' hrow _ ih =>
      rw [List.map_cons, List.map_cons, exposedRows_cons, exposedRows_cons, hrow.1, hrow.2.exposed,
        ih.1, exposed_str, exposed_str]
      refine ⟨rfl, fun ys hys name name' => ?_⟩
      obtain ⟨key, hkey, hys⟩ := of_bind_ok hys
      obtain ⟨y, hy, hys⟩ := of_bind_ok hys
      obtain ⟨rest, hrest, hys⟩ := of_bind_ok hys
      cases hkey
      cases hys
      rw [Answer.ofRows, Answer.ofRows, hrow.2.parts y hy name name', ih.2 rest hrest name name']
      rfl
  exact {
    exposed := by
      unfold Value.ofRows
      rw [exposed_dict, exposed_dict, told.1]
    parts := fun y hy name name' => by
      unfold Value.ofRows at hy
      rw [exposed_dict] at hy
      obtain ⟨ys, hys, hy⟩ := of_bind_ok hy
      cases hy
      rw [Answer.ofParts, Answer.ofParts, told.2 ys hys name name'] }

end Parts

end World

namespace Machine

variable {w : World} {p : Draft} {D : Definition Stored} {C : Nat → Prop}

/-! ## Reading a definition -/

theorem exec_iterateHelpers (m : Machine) {n : Nat} {helpers : List (String × Stored)}
    (h : w.cells[n]? = some (.ofRows (helperRows helpers))) :
    (m.iterate (cellValue n)).exec w = (.ok ((Table.keys helpers).map .str), w) := by
  have keys : (Value.ofRows (helperRows helpers)).items = .ok ((Table.keys helpers).map .str) :=
    congrArg Except.ok (by simp [helperRows, Table.keys])
  rw [exec_iterateCell m h, keys]

theorem exec_inspect (k : Nat) (h : w.Declares p D C) :
    ((nested (k + 1)).inspect p.value).exec w =
      (.ok (Definition.summary D.name D.description (p.specs.map fun s => objectValue s.1)
        D.block.isSome ((Table.keys D.instanceHelpers).map .str)
        ((Table.keys D.classHelpers).map .str)), w) := by
  have table {field : String} {x : Value} (hp : Session.start.isPlain (.made 4) field = true)
      (hx : Table.find? [("instance", cellValue p.ofInstance),
        ("class_scope", cellValue p.ofClass)] field = some x) :=
    exec_askTable (nested (k + 1)) h.toDrafts h.bundled hp hx
  unfold inspect
  rw [Run.exec_bind, exec_askName _ h.toDrafts h.bundled]
  dsimp only
  rw [Run.exec_bind, exec_sendDescription k h.toDrafts h.bundled]
  dsimp only
  rw [Run.exec_bind, exec_askParams _ h.toDrafts h.bundled]
  dsimp only
  rw [Run.exec_bind, exec_iterate _ h.params]
  dsimp only
  rw [Run.exec_bind, exec_askBlock _ h.toDrafts h.bundled]
  dsimp only
  rw [Run.exec_bind, exec_askHelpers _ h.toDrafts h.bundled]
  dsimp only
  rw [Run.exec_bind, table (by decide) rfl]
  dsimp only
  rw [Run.exec_bind, exec_iterateHelpers _ h.ofInstance]
  dsimp only
  rw [Run.exec_bind, exec_askHelpers _ h.toDrafts h.bundled]
  dsimp only
  rw [Run.exec_bind, table (by decide) rfl]
  dsimp only
  rw [Run.exec_bind, exec_iterateHelpers _ h.ofClass]
  cases D.block <;> rfl

theorem exec_paramNames (m : Machine) (h : w.Declares p D C) :
    ((p.specs.map fun s => objectValue s.1).mapM fun p => m.ask p "name").exec w =
      (.ok (D.params.map (·.name)), w) := by
  have names {specs : List (Nat × Nat)} {params : List ParamSpec}
      (hs : List.Forall₂ (fun s spec => w.ObjectAt s.1 Shape.paramSpec.cls s.2
        (ParamSpec.fields spec)) specs params) :
      ((specs.map fun s => objectValue s.1).mapM fun p => m.ask p "name").exec w =
        (.ok (params.map (·.name)), w) := by
    induction hs with
    | nil => rfl
    | cons hspec _ ih =>
      rw [List.map_cons, List.mapM_cons, Run.exec_bind,
        exec_askSpec m h.bundled hspec (by decide) rfl]
      dsimp only
      rw [Run.exec_bind, ih]
      rfl
  exact names h.specs

end Machine

namespace World

variable {w : World} {p : Draft} {D : Definition Stored} {C : Nat → Prop}

/-- The one line of a definition, made of the print of its name and of the names of its parameters. -/
def lineOf (w : World) (D : Definition Stored) : Except Fault String := do
  let name ← w.printedOf D.name
  return Definition.line name (← w.printedOf (.list (D.params.map (·.name))))

theorem Declares.within_names (h : w.Declares p D C) :
    (Value.list (D.params.map (·.name))).Within (w.data C) := by
  refine Value.withinItems_iff.mpr fun x hx => ?_
  obtain ⟨spec, hs, rfl⟩ := List.mem_map.mp hx
  exact h.within_params hs _ List.mem_cons_self

end World

namespace Machine

variable {w : World} {p : Draft} {D : Definition Stored} {C : Nat → Prop}

theorem exec_definitionText (m : Machine) (h : w.Declares p D C) :
    (m.definitionText p.value).exec w = ((w.lineOf D).map .str, w) := by
  have hname : D.name.Within (w.data C) := (h.values _ List.mem_cons_self).1
  unfold definitionText World.lineOf
  rw [Run.exec_bind, exec_askOwn m h.toDrafts h.bundled
    (show Session.start.isPlain (.made definitionClass) "_name" = true by decide) rfl]
  dsimp only
  rw [Run.exec_bind, exec_printed m h.data hname]
  cases w.printedOf D.name with
  | error f => rfl
  | ok name =>
    dsimp only
    rw [Run.exec_bind, exec_askOwn m h.toDrafts h.bundled
      (show Session.start.isPlain (.made definitionClass) "_params" = true by decide) rfl]
    dsimp only
    rw [Run.exec_bind, exec_iterate m h.params]
    dsimp only
    rw [Run.exec_bind, exec_paramNames m h]
    dsimp only
    rw [Run.exec_bind, exec_printed m h.data h.within_names]
    cases w.printedOf (.list (D.params.map (·.name))) <;> rfl

theorem exec_printDefinition (k : Nat) (h : w.Declares p D C) :
    ((nested (k + 1)).printed p.value).exec w = (w.lineOf D, w) := by
  have hclass : w.classOf p.value = .made definitionClass := h.object.classOf
  have hinside : w.inside? (.object p.object) = none := by
    show (w.shape? (w.classOf p.value)).map _ = none
    rw [hclass, h.bundled.shape? (by decide) (by decide)]
    rfl
  have hout : w.outlined p.value = .ok p.value := by
    have hdepth : w.referenceCount = w.referenceCount - 1 + 1 := by
      unfold World.referenceCount
      omega
    have hnone : (if (w.proxied? (.opaqueRef (.object p.object))).isSome then none
      else w.inside? (.object p.object)) = none := hinside
    rw [show p.value = .opaqueRef (.object p.object) from rfl]
    unfold World.outlined
    rw [World.expand, hdepth, World.follow, hnone]
  have hspecial : w.special? p.value "__repr__" =
      some (.function (.bundled (.definition .text)) (some p.value)) := by
    unfold World.special?
    rw [hclass]
    dsimp only
    rw [h.bundled.find? (by decide) (by decide)]
    rfl
  have hprint : ((nested (k + 1)).printedOpaque (.object p.object)).exec w = (w.lineOf D, w) := by
    unfold printedOpaque
    rw [Run.exec_bind, Run.exec_world]
    dsimp only
    rw [show w.special? (.opaqueRef (.object p.object)) "__repr__" = _ from hspecial]
    show Run.exec ((nested k).definitionText p.value >>= _) w = _
    rw [Run.exec_bind, exec_definitionText _ h]
    cases w.lineOf D <;> rfl
  unfold printed
  rw [Run.exec_bind, Run.exec_world]
  dsimp only
  rw [Run.exec_bind, Run.exec_lift, hout]
  dsimp only
  show Run.exec (do
    let v ← (do return verbatim (← (nested (k + 1)).printedOpaque (.object p.object)))
    Run.lift v.printed) w = _
  rw [Run.exec_bind, Run.exec_bind, hprint]
  cases w.lineOf D <;> rfl

end Machine

/-! ## Questions -/

/-- Two computations fail alike, or give values that are told alike. -/
inductive World.TellsAs : Except Fault Value × World → Except Fault Value × World → Prop
  | error (f : Fault) (w v : World) : TellsAs (.error f, w) (.error f, v)
  | ok {w v : World} {x x' : Value} (h : w.ToldAs v x x') : TellsAs (.ok x, w) (.ok x', v)

theorem World.TellsAs.told {r r' : Except Fault Value × World} (h : World.TellsAs r r') :
    r'.1.bind (Answer.ofValue r'.2) = r.1.bind (Answer.ofValue r.2) := by
  cases h with
  | error => rfl
  | ok h => exact h.ofValue

/-- What a definition is asked for. -/
inductive DefinitionGetter where
  | description
  | summary
  | line
  | schema
  /-- The helpers that a host with reserved names would take over. -/
  | helpers (reserved : List String)

/-- The step by which it is asked. -/
def DefinitionGetter.step (definition : String) : DefinitionGetter → Step
  | .description => .describe (some definition) .null
  | .summary => .inspect (some definition)
  | .line => .printed (some definition)
  | .schema => .inputSchema (some definition)
  | .helpers reserved => .helperTable (some definition) reserved

namespace Session

open World

variable {w v : World} {d : String} {p : Draft} {D : Definition Stored} {C C' : Nat → Prop}

theorem toldAs_params (hw : w.Declares p D C) (hv : v.Declares p D C') (hr : w.Retains v C) :
    List.Forall₂ (w.ToldAs v) (p.specs.map fun s => objectValue s.1)
      (p.specs.map fun s => objectValue s.1) := by
  have exposed {u : World} {C₁ : Nat → Prop} (hu : u.Declares p D C₁) {s : Nat × Nat}
      {spec : ParamSpec} (hs : spec ∈ D.params)
      (hat : u.ObjectAt s.1 Shape.paramSpec.cls s.2 (ParamSpec.fields spec)) :
      u.exposed (objectValue s.1) = u.exposed (.record .paramSpec spec.values) :=
    hu.data.encloses.exposed_reference (o := .object s.1) id
      (ObjectAt.inside? hu.bundled (by decide) hat rfl)
      (Value.WithinItems.refers (fun _ => id) (Value.withinItems_iff.mpr (hu.within_params hs)))
  have params {specs : List (Nat × Nat)} {params : List ParamSpec}
      (hs : List.Forall₂ (fun s spec => w.ObjectAt s.1 Shape.paramSpec.cls s.2
        (ParamSpec.fields spec)) specs params)
      (hs' : List.Forall₂ (fun s spec => v.ObjectAt s.1 Shape.paramSpec.cls s.2
        (ParamSpec.fields spec)) specs params) (hin : ∀ spec ∈ params, spec ∈ D.params) :
      List.Forall₂ (w.ToldAs v) (specs.map fun s => objectValue s.1)
        (specs.map fun s => objectValue s.1) := by
    induction hs with
    | nil => exact .nil
    | @cons s spec specs params hat _ ih =>
      obtain ⟨hat', hrest'⟩ := List.forall₂_cons.mp hs'
      have hspec := hin spec List.mem_cons_self
      have hx : Value.WithinItems (w.data C) spec.values :=
        Value.withinItems_iff.mpr (hw.within_params hspec)
      refine .cons (hw.data.toldAs_record (by rintro n name ⟨⟩) hx (exposed hw hspec hat) ?_)
        (ih hrest' fun spec hs => hin spec (List.mem_cons_of_mem _ hs))
      rw [exposed hv hspec hat', exposed_record, exposed_record, hr.exposedItems hw.data hx]
  exact params hw.specs hv.specs fun _ => id

/-- A definition answers alike in two worlds in which it stands as it was declared. -/
theorem definitionStep_tellsAs (hw : w.Declares p D C) (hv : v.Declares p D C')
    (hr : w.Retains v C) (g : DefinitionGetter) :
    TellsAs (((Machine.nested 999).definitionStep p.value (g.step d)).exec w)
      (((Machine.nested 999).definitionStep p.value (g.step d)).exec v) := by
  have hname : D.name.Within (w.data C) := (hw.values _ List.mem_cons_self).1
  cases g with
  | description =>
    have read {u : World} {C : Nat → Prop} (h : u.Declares p D C) :
        ((Machine.nested 999).definitionStep p.value (.describe (some d) .null)).exec u =
          (.ok D.description, u) := by
      show Run.exec (do
        let text ← Run.literal .null
        (Machine.nested 999).send p.value "description" [text] []) u = _
      rw [Run.exec_bind, show (Run.literal .null).exec u = (.ok .null, u) from rfl]
      dsimp only
      rw [Machine.exec_sendDefinition 998 .describe h.toDrafts h.bundled rfl rfl]
      exact Machine.exec_askOwn (Machine.nested 998) h.toDrafts h.bundled (by decide) rfl
    rw [DefinitionGetter.step, read hw, read hv]
    exact .ok (hr.toldAs hw.data hw.within_description)
  | summary =>
    have read {u : World} {C : Nat → Prop} (h : u.Declares p D C) := Machine.exec_inspect 998 h
    show TellsAs (((Machine.nested 999).inspect p.value).exec w)
      (((Machine.nested 999).inspect p.value).exec v)
    rw [read hw, read hv]
    refine .ok (toldAs_named (.cons ⟨rfl, hr.toldAs hw.data hname⟩
      (.cons ⟨rfl, hr.toldAs hw.data hw.within_description⟩
        (.cons ⟨rfl, toldAs_list (toldAs_params hw hv hr)⟩
          (.cons ⟨rfl, toldAs_bool w v _⟩
            (.cons ⟨rfl, toldAs_texts w v _⟩ (.cons ⟨rfl, toldAs_texts w v _⟩ .nil)))))))
  | line =>
    show TellsAs (Run.exec (do return .str (← (Machine.nested 999).printed p.value)) w)
      (Run.exec (do return .str (← (Machine.nested 999).printed p.value)) v)
    rw [Run.exec_bind, Run.exec_bind, Machine.exec_printDefinition 998 hw,
      Machine.exec_printDefinition 998 hv]
    have same : v.lineOf D = w.lineOf D := by
      unfold World.lineOf
      rw [hr.printedOf hw.data hname, hr.printedOf hw.data hw.within_names]
    rw [same]
    cases w.lineOf D with
    | error f => exact .error f w v
    | ok text => exact .ok (toldAs_text w v text)
  | schema =>
    show TellsAs (Run.exec ((Machine.nested 999).servedSchema p.value >>= _) w)
      (Run.exec ((Machine.nested 999).servedSchema p.value >>= _) v)
    rw [Run.exec_bind, Run.exec_bind, Machine.exec_servedSchema _ hw, Machine.exec_servedSchema _ hv,
      hr.servedSchema hw.data fun spec hs => hw.within_params hs]
    cases hs : w.servedSchema D.params with
    | error f => exact .error f w v
    | ok s =>
      have hx := within_servedSchema
        (fun spec hs => hw.within_params hs _ (by simp [ParamSpec.values])) hs
      obtain ⟨P, R, u, hrun, -, hP, hR⟩ := Machine.exec_schemaFields hw.data hx
      obtain ⟨P', R', u', hrun', -, hP', hR'⟩ :=
        Machine.exec_schemaFields hv.data (within_servedSchema (s := s)
          (fun spec hs => hv.within_params hs _ (by simp [ParamSpec.values]))
          (by rw [← hs]; exact hr.servedSchema hw.data fun spec hs => hw.within_params hs))
      dsimp only
      rw [Run.exec_bind, Run.exec_bind, hrun, hrun']
      refine .ok (toldAs_tuple (.cons ?_ (.cons ?_ .nil)))
      · exact hw.data.toldAs hx hP (hP'.trans (hr.exposed hw.data hx))
      · have told := toldAs_texts w v s.required
        exact ⟨hR'.trans (told.exposed.trans hR.symm), fun y hy =>
          (toldAs_texts u u' s.required).parts y
            (((toldAs_texts w u s.required).exposed.trans hR.symm).trans hy)⟩
  | helpers reserved =>
    have warned : Machine.collisionWarnings v D.name (collisions (Table.keys D.merged) reserved) =
        Machine.collisionWarnings w D.name (collisions (Table.keys D.merged) reserved) := by
      unfold Machine.collisionWarnings
      rw [hr.logFrom, hr.printedOf hw.data hname]
    show TellsAs (Run.exec (do
        return .list ((← (Machine.nested 999).freeHelpers p.value reserved).map helperRow)) w)
      (Run.exec (do
        return .list ((← (Machine.nested 999).freeHelpers p.value reserved).map helperRow)) v)
    rw [Run.exec_bind, Run.exec_bind, Machine.exec_freeHelpers hw, Machine.exec_freeHelpers hv, warned]
    cases Machine.collisionWarnings w D.name (collisions (Table.keys D.merged) reserved) with
    | error f => exact .error f w v
    | ok warnings =>
      refine .ok (toldAs_list (List.forall₂_map_left_iff.mpr (List.forall₂_map_right_iff.mpr
        (List.forall₂_same.mpr fun h hm => toldAs_list ?_))))
      obtain ⟨row, -, rfl⟩ := List.mem_map.mp (List.mem_of_mem_filter hm)
      exact .cons (toldAs_text _ _ _) (.cons (toldAs_text _ _ _) .nil)

theorem definition_tells_kept (hw : Holds w d p D C) (hv : Holds v d p D C') (hr : w.Retains v C)
    (g : DefinitionGetter) :
    (perform v (g.step d)).1.outcome = (perform w (g.step d)).1.outcome := by
  have named (step : DefinitionGetter) : machine.step (step.step d) = (do
      (Machine.nested 999).definitionStep (← Run.definitionById (some d)) (step.step d)) := by
    cases step <;> rfl
  rw [perform_outcome, perform_outcome, exec_named (hv.log []) (named g),
    exec_named (hw.log []) (named g)]
  exact (definitionStep_tellsAs (hw.log []).toDeclares (hv.log []).toDeclares
    ⟨hr.cells, hr.cells_le, hr.handles_le, hr.marks_le, hr.logFrom⟩ g).told

end Session

end Toolwright
