import Toolwright.Proofs.Publication.Agreement

/-!
# Definitions that read alike

Two definitions, which may be those of different moments of a session, with names, descriptions and
parameters that read alike are published alike: nothing else of them is told, on either host.
-/

namespace Toolwright

set_option autoImplicit false

namespace World

variable {w v : World} {x y : Value}

/-! ## Values -/

theorem printedOf_str (w : World) (text : String) :
    w.printedOf (.str text) = (Value.str text).printed := rfl

theorem textOf_bool (w : World) (b : Bool) : w.textOf (.bool b) = (Value.bool b).printed := rfl

/-- Values of two worlds that read alike: they expose and print the same, and count as true alike. -/
structure ReadsAs (w v : World) (x y : Value) : Prop where
  exposed : v.exposed y = w.exposed x
  text : v.textOf y = w.textOf x
  printed : v.printedOf y = w.printedOf x
  truth : v.truthOf y = w.truthOf x

theorem ReadsAs.refl (w : World) (x : Value) : w.ReadsAs w x x := ⟨rfl, rfl, rfl, rfl⟩

theorem ReadsAs.str (w v : World) (text : String) : w.ReadsAs v (.str text) (.str text) where
  exposed := (exposed_str v text).trans (exposed_str w text).symm
  text := rfl
  printed := (printedOf_str v text).trans (printedOf_str w text).symm
  truth := rfl

theorem ReadsAs.bool (w v : World) (b : Bool) : w.ReadsAs v (.bool b) (.bool b) where
  exposed := (exposed_bool v b).trans (exposed_bool w b).symm
  text := (textOf_bool v b).trans (textOf_bool w b).symm
  printed := (textOf_bool v b).trans (textOf_bool w b).symm
  truth := rfl

theorem Retains.readsAs {C : Nat → Prop} (h : w.Retains v C) (hd : w.HoldsData C)
    (hx : x.Within (w.data C)) : w.ReadsAs v x x :=
  ⟨h.exposed hd hx, h.textOf hd hx, h.printedOf hd hx, h.truthOf hd hx⟩

theorem ReadsAs.orBlank (h : w.ReadsAs v x y) :
    v.exposed (v.orBlank y) = w.exposed (w.orBlank x) := by
  unfold World.orBlank
  rw [h.truth]
  split
  · exact h.exposed
  · exact (ReadsAs.str w v "").exposed

theorem orEmpty_orBlank (w : World) (x : Value) : orEmpty (w.orBlank x) = w.orBlank x := by
  unfold World.orBlank
  split
  · exact if_pos (truthy_of_truthOf ‹_›)
  · rfl

/-! ## Rows -/

structure RowsAs (w v : World) (row row' : String × Value) : Prop where
  name : row'.1 = row.1
  exposed : v.exposed row'.2 = w.exposed row.2

theorem exposed_ofRows_alike {rows rows' : Named} (h : List.Forall₂ (w.RowsAs v) rows rows') :
    v.exposed (.ofRows rows') = w.exposed (.ofRows rows) := by
  have hrows : v.exposedRows (rows'.map fun row => (.str row.1, row.2)) =
      w.exposedRows (rows.map fun row => (.str row.1, row.2)) := by
    induction h with
    | nil => exact (exposedRows_nil v).trans (exposedRows_nil w).symm
    | cons hrow _ ih =>
      rw [List.map_cons, List.map_cons, exposedRows_cons, exposedRows_cons, ih, hrow.exposed,
        hrow.name, exposed_str, exposed_str]
  unfold Value.ofRows
  rw [exposed_dict, exposed_dict, hrows]

theorem exposed_texts (w v : World) (names : List String) :
    v.exposed (.list (names.map .str)) = w.exposed (.list (names.map .str)) := by
  have items : v.exposedItems (names.map .str) = w.exposedItems (names.map .str) := by
    induction names with
    | nil => exact (exposedItems_nil v).trans (exposedItems_nil w).symm
    | cons name names ih =>
      rw [List.map_cons, exposedItems_cons, exposedItems_cons, ih, exposed_str, exposed_str]
  rw [exposed_list, exposed_list, items]

theorem RowsAs.text (name text : String) : w.RowsAs v (name, .str text) (name, .str text) :=
  ⟨rfl, (ReadsAs.str w v text).exposed⟩

theorem forall₂_keep {rows rows' done done' : Named} (h : List.Forall₂ (w.RowsAs v) rows rows')
    (hd : List.Forall₂ (w.RowsAs v) done done') : List.Forall₂ (w.RowsAs v)
      (rows.foldl (fun t row => Table.insert row.1 row.2 t) done)
      (rows'.foldl (fun t row => Table.insert row.1 row.2 t) done') := by
  induction h generalizing done done' with
  | nil => exact hd
  | cons hrow _ ih =>
    refine ih ?_
    show List.Forall₂ _ (Table.insert _ _ _) (Table.insert _ _ _)
    rw [hrow.name]
    exact forall₂_insert _ ⟨rfl, hrow.exposed⟩ (fun _ _ h => h.name.symm) hd

theorem propertyOf_alike {type type' description description' : Value} (ht : w.ReadsAs v type type')
    (hd : w.ReadsAs v description description') :
    (∃ f, w.propertyOf type description = .error f ∧ v.propertyOf type' description' = .error f) ∨
      ∃ a b, w.propertyOf type description = .ok a ∧ v.propertyOf type' description' = .ok b ∧
        v.exposed b = w.exposed a := by
  unfold World.propertyOf
  rw [ht.text, hd.truth]
  cases w.textOf type with
  | error f => exact .inl ⟨f, rfl, rfl⟩
  | ok text =>
    refine .inr ⟨_, _, rfl, rfl, exposed_ofRows_alike ?_⟩
    split
    · exact .cons (.text "type" text) (.cons ⟨rfl, hd.exposed⟩ .nil)
    · exact .cons (.text "type" text) .nil

/-! ## Function-calling hosts -/

/-- Parameters of classes that read alike. -/
structure ParametersAs (w v : World) (p p' : String × Parameter) : Prop where
  key : p'.1 = p.1
  name : p'.2.name = p.2.name
  type : w.ReadsAs v p.2.type p'.2.type
  description : w.ReadsAs v p.2.description p'.2.description
  required : w.ReadsAs v p.2.required p'.2.required

structure FunctionCardsAs (w v : World) (card card' : FunctionCard) : Prop where
  name : w.ReadsAs v card.name card'.name
  description : w.ReadsAs v card.description card'.description
  parameters : List.Forall₂ (w.ParametersAs v) card.parameters card'.parameters

variable {t t' : ParameterTable}

theorem propertiesOf_alike (h : List.Forall₂ (w.ParametersAs v) t t') :
    (∃ f, w.propertiesOf t = .error f ∧ v.propertiesOf t' = .error f) ∨
      ∃ rows rows', w.propertiesOf t = .ok rows ∧ v.propertiesOf t' = .ok rows' ∧
        List.Forall₂ (w.RowsAs v) rows rows' := by
  induction h with
  | nil => exact .inr ⟨[], [], rfl, rfl, .nil⟩
  | @cons p p' t t' hp _ ih =>
    have unfolded (w : World) (p : String × Parameter) (t : ParameterTable) :
        w.propertiesOf (p :: t) = (do
          let property ← w.propertyOf p.2.type p.2.description
          return (p.2.name, property) :: (← w.propertiesOf t)) := by
      unfold World.propertiesOf
      rw [List.mapM_cons]
      cases w.propertyOf p.2.type p.2.description <;> rfl
    rw [unfolded, unfolded]
    rcases propertyOf_alike hp.type hp.description with ⟨f, ha, hb⟩ | ⟨a, b, ha, hb, he⟩
    · exact .inl ⟨f, by rw [ha]; rfl, by rw [hb]; rfl⟩
    · rcases ih with ⟨f, ht, ht'⟩ | ⟨rows, rows', ht, ht', hrows⟩
      · exact .inl ⟨f, by rw [ha, ht]; rfl, by rw [hb, ht']; rfl⟩
      · exact .inr ⟨_, _, by rw [ha, ht]; rfl, by rw [hb, ht']; rfl, .cons ⟨hp.name, he⟩ hrows⟩

theorem requiredOf_alike (h : List.Forall₂ (w.ParametersAs v) t t') :
    v.requiredOf t' = w.requiredOf t := by
  induction h with
  | nil => rfl
  | @cons p p' t t' hp _ ih =>
    unfold World.requiredOf at ih ⊢
    simp only [List.map_cons, List.filter_cons, hp.required.truth]
    split
    · rw [List.map_cons, List.map_cons, ih, hp.name]
    · exact ih

theorem schemaOf_alike (h : List.Forall₂ (w.ParametersAs v) t t') :
    (∃ f, w.schemaOf t = .error f ∧ v.schemaOf t' = .error f) ∨
      ∃ a b, w.schemaOf t = .ok a ∧ v.schemaOf t' = .ok b ∧ v.exposed b = w.exposed a := by
  unfold World.schemaOf
  rw [requiredOf_alike h]
  rcases propertiesOf_alike h with ⟨f, ha, hb⟩ | ⟨rows, rows', ha, hb, hrows⟩
  · exact .inl ⟨f, by rw [ha]; rfl, by rw [hb]; rfl⟩
  · refine .inr ⟨_, _, by rw [ha]; rfl, by rw [hb]; rfl, exposed_ofRows_alike ?_⟩
    have hproperties := exposed_ofRows_alike (forall₂_keep hrows .nil)
    refine .cons (.text _ _) (.cons ⟨rfl, hproperties⟩ ?_)
    split
    · exact .nil
    · exact .cons ⟨rfl, exposed_texts _ _ _⟩ .nil

theorem titleOf_alike (h : w.ReadsAs v x y) (className : String) :
    v.exposed (v.titleOf className y) = w.exposed (w.titleOf className x) := by
  unfold World.titleOf
  rw [h.truth]
  split
  · exact h.exposed
  · exact (ReadsAs.str w v _).exposed

variable {card card' : FunctionCard} {C : Nat → Prop}

theorem functionDocument_alike (h : w.FunctionCardsAs v card card') (className : String) :
    (∃ f, w.functionDocument className card = .error f ∧
        v.functionDocument className card' = .error f) ∨
      ∃ a b, w.functionDocument className card = .ok a ∧ v.functionDocument className card' = .ok b ∧
        v.exposed b = w.exposed a := by
  unfold World.functionDocument
  rcases schemaOf_alike h.parameters with ⟨f, ha, hb⟩ | ⟨a, b, ha, hb, he⟩
  · exact .inl ⟨f, by rw [ha]; rfl, by rw [hb]; rfl⟩
  · refine .inr ⟨_, _, by rw [ha]; rfl, by rw [hb]; rfl, exposed_ofRows_alike ?_⟩
    refine .cons ⟨rfl, titleOf_alike h.name className⟩ (.cons ⟨rfl, ?_⟩ (.cons ⟨rfl, he⟩ .nil))
    rw [orEmpty_orBlank, orEmpty_orBlank]
    exact h.description.orBlank

theorem recordRows_alike (h : List.Forall₂ (w.ParametersAs v) t t') :
    v.exposed (.dict (recordRows .toolParameter t'.records)) =
      w.exposed (.dict (recordRows .toolParameter t.records)) := by
  have hrows : v.exposedRows (recordRows .toolParameter t'.records) =
      w.exposedRows (recordRows .toolParameter t.records) := by
    induction h with
    | nil => exact (exposedRows_nil v).trans (exposedRows_nil w).symm
    | @cons p p' t t' hp _ ih =>
      have unfolded (w : World) (p : String × Parameter) (t : ParameterTable) :
          w.exposedRows (recordRows .toolParameter (ParameterTable.records (p :: t))) = (do
            return (.str p.1, .record .toolParameter (← w.exposedItems p.2.values)) ::
              (← w.exposedRows (recordRows .toolParameter t.records))) := by
        show w.exposedRows ((.str p.1, .record .toolParameter p.2.values) ::
          recordRows .toolParameter t.records) = _
        rw [exposedRows_cons, exposed_str, exposed_record]
        cases w.exposedItems p.2.values <;> rfl
      rw [unfolded, unfolded, ih, hp.key]
      have hvalues : v.exposedItems p'.2.values = w.exposedItems p.2.values := by
        unfold Parameter.values
        simp only [exposedItems_cons, exposedItems_nil, hp.name, hp.type.exposed,
          hp.description.exposed, hp.required.exposed, exposed_str]
      rw [hvalues]
  rw [exposed_dict, exposed_dict, hrows]

theorem functionTells_alike (hd : w.HoldsData C) (hx : card.IsData w C) (h : w.FunctionCardsAs v card card')
    (className : String) (g : FunctionGetter) :
    v.functionTells className card' g = w.functionTells className card g := by
  cases g with
  | title =>
    exact Answer.ofValue_data hd (titleOf_within className hx.name) (titleOf_alike h.name className)
  | description => exact Answer.ofValue_data hd hx.description h.description.exposed
  | parameters =>
    exact Answer.ofValue_records (by rintro n name ⟨⟩) hd (records_within hx.parameters)
      (recordRows_alike h.parameters)
  | schema =>
    show (v.functionDocument className card').bind _ = (w.functionDocument className card).bind _
    rcases functionDocument_alike h className with ⟨f, ha, hb⟩ | ⟨a, b, ha, hb, he⟩
    · rw [ha, hb]
      rfl
    · rw [ha, hb]
      exact Answer.ofValue_data hd (functionDocument_within hx ha) he
  | entry =>
    show ((v.functionDocument className card').map functionEntry).bind _ =
      ((w.functionDocument className card).map functionEntry).bind _
    rcases functionDocument_alike h className with ⟨f, ha, hb⟩ | ⟨a, b, ha, hb, he⟩
    · rw [ha, hb]
      rfl
    · rw [ha, hb]
      exact Answer.ofValue_data (x := functionEntry a) hd
        ⟨⟨trivial, trivial⟩, ⟨trivial, functionDocument_within hx ha⟩, trivial⟩
        (exposed_ofRows_alike (.cons (.text _ _) (.cons ⟨rfl, he⟩ .nil)))

/-! ## Serving hosts -/

/-- What was declared on two classes of serving hosts reads alike. -/
structure ServingCardsAs (w v : World) (card card' : ServingCard) : Prop where
  name : w.ReadsAs v card.name card'.name
  description : w.ReadsAs v card.description card'.description
  properties : v.exposed card'.fields.1 = w.exposed card.fields.1
  required : v.exposed card'.fields.2 = w.exposed card.fields.2

theorem servingTells_alike {card card' : ServingCard} (hd : w.HoldsData C) (hx : card.IsData w C)
    (h : w.ServingCardsAs v card card') (className : String) (g : ServingGetter) :
    v.servingTells className card' g = w.servingTells className card g := by
  cases g with
  | title =>
    exact Answer.ofValue_data hd (titleOf_within className hx.name) (titleOf_alike h.name className)
  | description => exact Answer.ofValue_data hd hx.description h.description.exposed
  | schema =>
    have hitems : Value.WithinItems (w.data C) [card.fields.1, card.fields.2] :=
      ⟨hx.properties, hx.required, trivial⟩
    refine Answer.ofValue_record (by rintro n name ⟨⟩) hd hitems ?_
    rw [exposed_record, exposed_record]
    simp only [exposedItems_cons, exposedItems_nil, h.properties, h.required]
  | listing =>
    refine Answer.ofValue_data hd (listingDocument_within hx className) (exposed_ofRows_alike ?_)
    refine .cons ⟨rfl, titleOf_alike h.name className⟩ (.cons ⟨rfl, ?_⟩ (.cons ⟨rfl, ?_⟩ .nil))
    · rw [orEmpty_orBlank, orEmpty_orBlank]
      exact h.description.orBlank
    · exact exposed_schemaDocument h.properties h.required

/-! ## Definitions -/

/-- Declared parameters that read alike, but for their defaults and for whether they are required. -/
structure SpecsAs (w v : World) (spec spec' : ParamSpec) : Prop where
  name : w.ReadsAs v spec.name spec'.name
  type : w.ReadsAs v spec.type spec'.type
  description : w.ReadsAs v spec.description spec'.description

/-- Definitions that read alike, but for the defaults of their parameters and for whether these are
required. -/
structure DefinitionsAs (w v : World) (D D' : Definition Stored) : Prop where
  name : w.ReadsAs v D.name D'.name
  description : w.ReadsAs v D.description D'.description
  params : List.Forall₂ (w.SpecsAs v) D.params D'.params

variable {D D' : Definition Stored} {specs specs' : List ParamSpec} {names : List String}

theorem textsOf_alike (h : List.Forall₂ (w.SpecsAs v) specs specs') :
    v.textsOf specs' = w.textsOf specs := by
  induction h with
  | nil => rw [textsOf_nil, textsOf_nil]
  | cons hs _ ih => rw [textsOf_cons, textsOf_cons, ih, hs.name.text]

theorem declaredTable_alike (h : List.Forall₂ (w.SpecsAs v) specs specs')
    (ht : List.Forall₂ (w.ParametersAs v) t t') (names : List String) :
    List.Forall₂ (w.ParametersAs v) (Machine.declaredTable (specs.zip names) t)
      (Machine.declaredTable (specs'.zip names) t') := by
  induction h generalizing t t' names with
  | nil => exact ht
  | @cons spec spec' specs specs' hs _ ih =>
    cases names with
    | nil => exact ht
    | cons name names =>
      have taken : w.ParametersAs v (name, Machine.takenOver spec name)
          (name, Machine.takenOver spec' name) :=
        ⟨rfl, rfl, hs.type, hs.description, .bool w v true⟩
      exact ih (forall₂_insert name taken (fun _ _ h => h.key.symm) ht) names

theorem functionCard_alike (h : w.DefinitionsAs v D D') (ht : List.Forall₂ (w.ParametersAs v) t t')
    (text : String) (names : List String) :
    w.FunctionCardsAs v (Machine.functionCard D text names t) (Machine.functionCard D' text names t') :=
  ⟨.str w v text, h.description, declaredTable_alike h.params ht names⟩

theorem publishedRows_alike (h : List.Forall₂ (w.SpecsAs v) specs specs') {rows rows' : Named}
    (hr : specs.mapM w.publishedRow = .ok rows) (hr' : specs'.mapM v.publishedRow = .ok rows') :
    List.Forall₂ (w.RowsAs v) rows rows' := by
  induction h generalizing rows rows' with
  | nil =>
    cases hr
    cases hr'
    exact .nil
  | @cons spec spec' specs specs' hs _ ih =>
    obtain ⟨row, rest, hrow, hrest, rfl⟩ := of_mapM_cons_ok hr
    obtain ⟨row', rest', hrow', hrest', rfl⟩ := of_mapM_cons_ok hr'
    refine .cons ?_ (ih hrest hrest')
    obtain ⟨name, hname, hrow⟩ := of_bind_ok hrow
    obtain ⟨name', hname', hrow'⟩ := of_bind_ok hrow'
    obtain ⟨property, hproperty, hrow⟩ := of_bind_ok hrow
    obtain ⟨property', hproperty', hrow'⟩ := of_bind_ok hrow'
    cases hrow
    cases hrow'
    rw [hs.name.text, hname] at hname'
    cases hname'
    rcases propertyOf_alike hs.type hs.description with ⟨f, ha, -⟩ | ⟨a, b, ha, hb, he⟩
    · rw [hproperty] at ha
      cases ha
    · rw [hproperty] at ha
      rw [hproperty'] at hb
      cases ha
      cases hb
      exact ⟨rfl, he⟩

theorem requiredOf_specs_alike
    (h : List.Forall₂ (fun spec spec' => v.truthOf spec'.required = w.truthOf spec.required) specs specs')
    (names : List String) :
    Toolwright.requiredOf (v.truthOf ·.required) (specs'.zip names) =
      Toolwright.requiredOf (w.truthOf ·.required) (specs.zip names) := by
  induction h generalizing names with
  | nil => rfl
  | cons hs _ ih =>
    cases names with
    | nil => rfl
    | cons name names =>
      rw [List.zip_cons_cons, List.zip_cons_cons, requiredOf_cons, requiredOf_cons, ih, hs]

/-- The schemas of parameters that read alike have the same properties, and the same required names
if the same parameters are required. -/
theorem servedSchema_alike (h : List.Forall₂ (w.SpecsAs v) specs specs') {schema schema' : InputSchema}
    (hs : w.servedSchema specs = .ok schema) (hs' : v.servedSchema specs' = .ok schema') :
    List.Forall₂ (w.RowsAs v) schema.properties schema'.properties ∧
      (List.Forall₂ (fun spec spec' => v.truthOf spec'.required = w.truthOf spec.required)
        specs specs' → schema'.required = schema.required) := by
  obtain ⟨rows, hrows, hproperties, hrequired⟩ := of_servedSchema hs
  obtain ⟨rows', hrows', hproperties', hrequired'⟩ := of_servedSchema hs'
  have halike := publishedRows_alike h hrows hrows'
  refine ⟨?_, fun hall => ?_⟩
  · rw [hproperties, hproperties']
    exact forall₂_keep halike .nil
  · have hkeys : Table.keys rows' = Table.keys rows := by
      clear hrows hrows' hproperties hproperties' hrequired hrequired'
      induction halike with
      | nil => rfl
      | cons hrow _ ih =>
        unfold Table.keys at ih ⊢
        rw [List.map_cons, List.map_cons, ih, hrow.name]
    rw [hrequired, hrequired', hkeys, requiredOf_specs_alike hall]

end World

namespace Session

open Machine

variable {w w' v v' : World} {d d' c c' : String} {p p' : Draft} {D D' : Definition Stored}
  {C C' : Nat → Prop} {base base' : Option String} {b b' : ClassRef} {s s' : Shelf}
  {t t' : ParameterTable} {config config' : Option ConfigDraft} {answer answer' : Answer}

/-- Classes of function-calling hosts to which definitions that read alike were adapted tell the same,
if so do the parameters that they take over from the classes above them. -/
theorem functions_publish_alike (h : MeetsFunctionHost w d p D C base b s t)
    (h' : MeetsFunctionHost w' d' p' D' C' base' b' s' t') (hD : w.DefinitionsAs w' D D')
    (ht : List.Forall₂ (w.ParametersAs w') t t')
    (hl : (perform w (.toLlm (some d) c base)).1.outcome = .ok answer)
    (hl' : (perform w' (.toLlm (some d') c' base')).1.outcome = .ok answer') (g : FunctionGetter) :
    (perform (perform w' (.toLlm (some d') c' base')).2 (.callClass c' g.attribute [] [])).1.outcome =
      (perform (perform w (.toLlm (some d) c base)).2 (.callClass c g.attribute [] [])).1.outcome := by
  obtain ⟨v, text, names, q, hv, hr, hb, hc, htext, hnames, hname, hhost⟩ := h.host_toLlm hl
  obtain ⟨v', text', names', q', hv', hr', hb', hc', htext', hnames', hname', hhost'⟩ :=
    h'.host_toLlm hl'
  rw [hD.name.text, htext] at htext'
  cases htext'
  rw [World.textsOf_alike hD.params, hnames] at hnames'
  cases hnames'
  have hcard : (functionCard D text names t).IsData w C :=
    ⟨trivial, h.within_description, World.values_declaredTable (fun _ hs => h.within_params hs)
      fun p hp x hx => (h.host.shelf.values p hp x hx).1⟩
  have hcard' : (functionCard D' text names t').IsData w' C' :=
    ⟨trivial, h'.within_description, World.values_declaredTable (fun _ hs => h'.within_params hs)
      fun p hp x hx => (h'.host.shelf.values p hp x hx).1⟩
  rw [hv, hv', function_tells hb ((hr C h.data).holdsData h.data) hhost hc g,
    function_tells hb' ((hr' C' h'.data).holdsData h'.data) hhost' hc' g, hname, hname',
    (hr C h.data).functionTells h.data hcard, (hr' C' h'.data).functionTells h'.data hcard']
  exact World.functionTells_alike h.data hcard (World.functionCard_alike hD ht text names) _ g

/-- What a serving host tells of a definition: its name, its description, and the properties and the
required names of its schema. -/
def servedCard (D : Definition Stored) (text : String) (properties : Named) (required : List String) :
    ServingCard :=
  ⟨.str text, D.description, some (.ofRows properties, .list (required.map .str))⟩

theorem servedCard_isData (h : w.Declares p D C) {properties : Named}
    (hx : (Value.ofRows properties).Within (w.data C)) (text : String) (required : List String) :
    (servedCard D text properties required).IsData w C where
  name := trivial
  description := h.within_description
  properties := hx
  required := by
    refine Value.withinItems_iff.mpr fun x hx => ?_
    obtain ⟨name, _, rfl⟩ := List.mem_map.mp hx
    trivial

theorem serving_publishes (h : MeetsServingHost w d p D C base b)
    (hl : (perform w (.toMcp (some d) c base config)).1.outcome = .ok answer) :
    ∃ text schema, w.textOf D.name = .ok text ∧ w.servedSchema D.params = .ok schema ∧
      (Value.ofRows schema.properties).Within (w.data C) ∧ ∀ g : ServingGetter,
        (perform (perform w (.toMcp (some d) c base config)).2
          (.callClass c g.attribute [] [])).1.outcome =
          w.servingTells (Naming.className text "")
            (servedCard D text schema.properties schema.required) g := by
  obtain ⟨v, n, text, q, schema, C', hv, hr, hb, hd, hc, htext, hschema, hname, hexposes, hhost⟩ :=
    h.host_toMcp hl
  have hr := hr C h.data
  have hwithin := World.within_servedSchema
    (fun spec hs => h.within_params hs _ (by simp [ParamSpec.values])) hschema
  have hcard := servedCard_isData h.toDeclares hwithin text schema.required
  have hcards : w.ServingCardsAs v (servedCard D text schema.properties schema.required)
      (servingCard D text q) :=
    ⟨.str w v text, hr.readsAs h.data h.within_description,
      hexposes.properties.trans (hr.exposed h.data hwithin),
      hexposes.required.trans (hr.exposed h.data hcard.required)⟩
  refine ⟨text, schema, htext, hschema, hwithin, fun g => ?_⟩
  rw [hv, serving_tells hb hd hhost hc g, hname]
  exact World.servingTells_alike h.data hcard hcards _ g

/-- Classes of serving hosts to which definitions that read alike were adapted tell the same, but for
the required names of their schemas; these are the same if the same parameters are required. -/
theorem servings_publish_alike (h : MeetsServingHost w d p D C base b)
    (h' : MeetsServingHost w' d' p' D' C' base' b') (hD : w.DefinitionsAs w' D D')
    (hl : (perform w (.toMcp (some d) c base config)).1.outcome = .ok answer)
    (hl' : (perform w' (.toMcp (some d') c' base' config')).1.outcome = .ok answer') :
    ∃ text properties required required',
      (List.Forall₂ (fun spec spec' => w'.truthOf spec'.required = w.truthOf spec.required) D.params
        D'.params → required' = required) ∧ ∀ g : ServingGetter,
      (perform (perform w (.toMcp (some d) c base config)).2
        (.callClass c g.attribute [] [])).1.outcome =
          w.servingTells (Naming.className text "") (servedCard D text properties required) g ∧
      (perform (perform w' (.toMcp (some d') c' base' config')).2
        (.callClass c' g.attribute [] [])).1.outcome =
          w.servingTells (Naming.className text "") (servedCard D text properties required') g := by
  obtain ⟨text, schema, htext, hschema, hwithin, htells⟩ := serving_publishes h hl
  obtain ⟨text', schema', htext', hschema', -, htells'⟩ := serving_publishes h' hl'
  rw [hD.name.text, htext] at htext'
  cases htext'
  obtain ⟨hproperties, hrequired⟩ := World.servedSchema_alike hD.params hschema hschema'
  refine ⟨text, schema.properties, schema.required, schema'.required, hrequired,
    fun g => ⟨htells g, (htells' g).trans ?_⟩⟩
  have hcards : w.ServingCardsAs w' (servedCard D text schema.properties schema'.required)
      (servedCard D' text schema'.properties schema'.required) :=
    ⟨.str w w' text, hD.description, World.exposed_ofRows_alike hproperties,
      World.exposed_texts _ _ _⟩
  exact World.servingTells_alike h.data
    (servedCard_isData h.toDeclares hwithin text schema'.required) hcards _ g

end Session

end Toolwright
