import Toolwright.Proofs.Publication.Listings

/-!
# What both hosts publish of a definition

A definition that was adapted for hosts of both kinds is published under one name, with one
description and with the same properties. The one host requires all parameters, the other one those
that are declared to be required.
-/

namespace Toolwright

set_option autoImplicit false

namespace Machine

variable {w : World} {n : Nat} {b : ClassRef} {p : Draft} {D : Definition Stored} {C : Nat → Prop}
  {text : String} {t : ParameterTable}

/-- What was declared on a class that a definition was adapted to, for a function-calling host. -/
def functionCard (D : Definition Stored) (text : String) (names : List String)
    (t : ParameterTable) : FunctionCard :=
  ⟨.str text, D.description, declaredTable (D.params.zip names) t⟩

def servingCard (D : Definition Stored) (text : String) (q : SchemaPlace) : ServingCard :=
  ⟨.str text, D.description, some (cellValue q.properties, cellValue q.required)⟩

theorem FunctionTool.functionHost {reserved names : List String} {s : Shelf}
    (h : FunctionTool w n b p D reserved text names s t C) (hx : D.description.Within (w.data C)) :
    w.FunctionHost n (functionCard D text names t) s C ∧
      w.className (.made n) = Naming.className text "" := by
  obtain ⟨own, hcls, hown⟩ := h.tool
  obtain ⟨k, hk⟩ := h.furnished.methods.finds ("tool_name", .functionName) (by decide)
  refine ⟨?_, hcls.className⟩
  exact {
    tellsName := ⟨k, .functionName, by decide, hk⟩
    tellsDescription := h.furnished.methods.finds ("description", .description) (by decide)
    ownName := .inl ((hcls.own? _).trans hown.name)
    ownDescription := by
      rw [hcls.own?]
      exact hown.description
    data := ⟨trivial, hx⟩
    methods := h.furnished.methods
    parameters := ⟨_, h.furnished.parameters⟩
    shelf := h.furnished.shelf }

theorem ServedTool.servingHost {indent : Value} {s : InputSchema}
    (h : ServedTool w n b p D indent text s C) (hb : w.ServingBase b)
    (hx : D.description.Within (w.data C)) :
    ∃ q, w.ServingHost (n + 1) (servingCard D text q) C ∧
      w.className (.made (n + 1)) = Naming.className text "" ∧ World.Exposes w w q s := by
  obtain ⟨own, q, properties, hcls, hown, hat, -, hexposes⟩ := h.tool
  have others : ∀ row ∈ servingMethods, own row.1 = none := by
    have plain : ∀ row ∈ servingMethods, row.1 ∉ ClassPlan.standing ∧ row.1 ∉ ["_name",
        "_description", "_input_schema", "definition", "helper_class", "call"] := by decide
    exact fun row hr => hown.others row.1 (plain row hr).1 (plain row hr).2
  have methods := hcls.hasMethods hb.toHasMethods others
  obtain ⟨k, hk⟩ := methods.finds ("tool_name", .servedName) (by decide)
  refine ⟨q, ?_, hcls.className, hexposes⟩
  exact {
    tellsName := ⟨k, .servedName, by decide, hk⟩
    tellsDescription := methods.finds ("description", .description) (by decide)
    ownName := .inl ((hcls.own? _).trans hown.name)
    ownDescription := by
      rw [hcls.own?]
      exact hown.description
    data := ⟨trivial, hx⟩
    methods := methods
    schema := by
      rw [hcls.own?, hown.schema]
      exact .given hat.data.1 hat.data.2 hat.object }

/-! ## The properties -/

structure TakenAs (w : World) (p : String × Parameter) (row : String × Value) : Prop where
  key : p.1 = row.1
  name : p.2.name = p.1
  required : p.2.required = .bool true
  property : w.propertyOf p.2.type p.2.description = .ok row.2

theorem takenAs_declaredTable {specs : List ParamSpec} {rows : Named}
    (h : specs.mapM w.publishedRow = .ok rows) {done : Named}
    (hd : List.Forall₂ (TakenAs w) t done) :
    List.Forall₂ (TakenAs w) (declaredTable (specs.zip (Table.keys rows)) t)
      (rows.foldl (fun t row => Table.insert row.1 row.2 t) done) := by
  induction specs generalizing rows t done with
  | nil =>
    cases h
    exact hd
  | cons spec specs ih =>
    obtain ⟨row, rest, hrow, hrest, rfl⟩ := of_mapM_cons_ok h
    obtain ⟨name, hname, hrow⟩ := of_bind_ok hrow
    obtain ⟨property, hproperty, hrow⟩ := of_bind_ok hrow
    cases hrow
    have hnew : TakenAs w (name, takenOver spec name) (name, property) :=
      ⟨rfl, rfl, rfl, hproperty⟩
    exact ih hrest (World.forall₂_insert name hnew (fun _ _ h => h.key) hd)

theorem published_takenAs {rows : Named} (h : List.Forall₂ (TakenAs w) t rows) :
    w.propertiesOf t = .ok rows ∧ w.requiredOf t = Table.keys rows := by
  unfold World.propertiesOf World.requiredOf
  induction h with
  | nil => exact ⟨rfl, rfl⟩
  | @cons p row t rows hp _ ih =>
    refine ⟨?_, ?_⟩
    · rw [List.mapM_cons, ih.1, hp.property, hp.name, hp.key]
      rfl
    · have htrue : w.truthOf p.2.required = true := by
        rw [hp.required]
        rfl
      rw [List.map_cons, List.filter_cons, if_pos htrue, List.map_cons, ih.2, hp.name, hp.key]
      rfl

end Machine

/-! ## What is told -/

namespace World

variable {w : World} {C : Nat → Prop} {properties : Named} {description : Value} {a : Answer}

def titleText (text : String) : String :=
  if text = "" then Naming.toolName (Naming.className text "") else text

theorem titleOf_text (w : World) (text : String) :
    w.titleOf (Naming.className text "") (.str text) = .str (titleText text) := by
  unfold titleOf titleText
  have htrue : w.truthOf (.str text) = !text.isEmpty := rfl
  rw [htrue]
  by_cases he : text = ""
  · subst he
    rfl
  · rw [if_neg he, if_pos]
    simpa [String.isEmpty_iff] using he

end World

namespace Answer

/-- The member of a schema that names the required parameters, where there are any. -/
def requiredRow (names : List String) : List (String × Answer) :=
  if names.isEmpty then [] else [("required", .list (names.map .str))]

/-- What a tool of a function-calling host exports that requires some of its parameters. -/
def exporting (name description : Answer) (properties : List (String × Answer))
    (required : List String) : Answer :=
  ofNamed [("name", name), ("description", description),
    ("parameters", ofNamed ([("type", .str "object"), ("properties", ofNamed properties)] ++
      requiredRow required))]

/-- What a tool of a function-calling host exports that requires all of them. -/
def exported (name : String) (description : Answer) (properties : List (String × Answer)) : Answer :=
  ofNamed [("name", .str name), ("description", description),
    ("parameters", ofNamed ([("type", .str "object"), ("properties", ofNamed properties)] ++
      requiredRow (Table.keys properties)))]

/-- What a tool of a serving host lists. -/
def listed (name : String) (description : Answer) (properties : List (String × Answer))
    (required : List String) : Answer :=
  ofNamed [("name", .str name), ("description", description),
    ("inputSchema", ofNamed [("type", .str "object"), ("properties", ofNamed properties),
      ("required", .list (required.map .str))])]

variable {w : World} {properties : Named} {description : Value} {a : Answer} {name : String}

theorem of_exporting {required : List String} {x : Value} (h : ofValue w (functionSchema x description
      (parametersDocument properties required)) = .ok a) :
    ∃ title descriptionTold rows, ofValue w x = .ok title ∧
      ofValue w (orEmpty description) = .ok descriptionTold ∧
      ofValue w (.ofRows properties) = .ok (ofNamed rows) ∧
      Table.keys rows = Table.keys properties ∧
      a = exporting title descriptionTold rows required := by
  obtain ⟨title, rest, htitle, h₁, rfl⟩ := of_ofValue_cons h
  obtain ⟨second, rest, hsecond, h₂, hrest⟩ := of_ofValue_cons h₁
  obtain ⟨third, rest, hthird, h₃, hrest'⟩ := of_ofValue_cons h₂
  cases hrest'
  cases hrest
  cases h₃
  obtain ⟨type, rest, htype, hrows, rfl⟩ := of_ofValue_cons hthird
  obtain ⟨told, rest, htold, hlast, hrest⟩ := of_ofValue_cons hrows
  cases htype
  cases hrest
  obtain ⟨rows, rfl, hkeys⟩ := of_ofValue_named htold
  refine ⟨title, second, rows, htitle, hsecond, htold, hkeys, ?_⟩
  unfold exporting requiredRow
  cases hempty : required.isEmpty with
  | true =>
    rw [hempty] at hlast
    cases hlast
    rfl
  | false =>
    rw [hempty] at hlast
    obtain ⟨names, rest, hnames, hnil, hrest⟩ := of_ofValue_cons hlast
    cases hrest
    cases hnil
    rw [ofValue_texts] at hnames
    cases hnames
    rfl

theorem of_exported (h : ofValue w (functionSchema (.str name) description
      (parametersDocument properties (Table.keys properties))) = .ok a) :
    ∃ descriptionTold rows, ofValue w (orEmpty description) = .ok descriptionTold ∧
      ofValue w (.ofRows properties) = .ok (ofNamed rows) ∧
      Table.keys rows = Table.keys properties ∧ a = exported name descriptionTold rows := by
  obtain ⟨title, described, rows, htitle, hdescribed, hrows, hkeys, rfl⟩ := of_exporting h
  cases htitle
  refine ⟨described, rows, hdescribed, hrows, hkeys, ?_⟩
  unfold exported
  rw [hkeys]
  rfl

theorem ofValue_listed {descriptionTold : Answer} {rows : List (String × Answer)}
    {required : List String} (hd : ofValue w (orEmpty description) = .ok descriptionTold)
    (hp : ofValue w (.ofRows properties) = .ok (ofNamed rows)) :
    ofValue w (listingEntry (.str name) description (schemaDocument (.ofRows properties)
      (.list (required.map .str)))) = .ok (listed name descriptionTold rows required) := by
  have hschema : ofValue w (schemaDocument (.ofRows properties) (.list (required.map .str))) =
      .ok (ofNamed [("type", .str "object"), ("properties", ofNamed rows),
        ("required", .list (required.map .str))]) :=
    ofValue_cons (ofValue_str w _) (ofValue_cons hp (ofValue_cons (ofValue_texts w required)
      (ofValue_nil w)))
  exact ofValue_cons (ofValue_str w _) (ofValue_cons hd (ofValue_cons hschema (ofValue_nil w)))

theorem ofValue_inputSchema {x y : Value} {b : Answer} (hx : ofValue w x = .ok a)
    (hy : ofValue w y = .ok b) : ofValue w (.record .inputSchema [x, y]) =
      .ok (.schema [(.str "type", .str "object"), (.str "properties", a), (.str "required", b)]) := by
  unfold ofValue at hx hy ⊢
  obtain ⟨x', hx', hx⟩ := of_bind_ok hx
  obtain ⟨y', hy', hy⟩ := of_bind_ok hy
  rw [World.exposed_record, World.exposedItems_cons, World.exposedItems_cons, hx', hy']
  show ofParts w _ (.record .inputSchema [x', y']) = _
  rw [ofParts, ofItems, ofItems, hx, hy]
  rfl

end Answer

namespace World

open Machine

variable {w v v' : World} {D : Definition Stored} {C : Nat → Prop} {names : List String}
  {text : String} {q : SchemaPlace} {schema : InputSchema} {exported : Answer}

theorem textsOf_publishedRows {specs : List ParamSpec} {rows : Named}
    (h : specs.mapM w.publishedRow = .ok rows) : w.textsOf specs = .ok (Table.keys rows) := by
  induction specs generalizing rows with
  | nil =>
    cases h
    rfl
  | cons spec specs ih =>
    obtain ⟨row, rest, hrow, hrest, rfl⟩ := of_mapM_cons_ok h
    obtain ⟨name, hname, hrow⟩ := of_bind_ok hrow
    obtain ⟨property, -, hrow⟩ := of_bind_ok hrow
    cases hrow
    rw [textsOf_cons, hname, ih hrest]
    rfl

theorem values_declaredTable {e : Extent} {specs : List ParamSpec} {t : ParameterTable}
    (h : ∀ spec ∈ specs, ∀ x ∈ spec.values, x.Within e)
    (ht : ∀ p ∈ t, ∀ x ∈ p.2.values, x.Within e) :
    ∀ p ∈ declaredTable (specs.zip names) t, ∀ x ∈ p.2.values, x.Within e := by
  have written : ∀ row ∈ specs.zip names, ∀ x ∈ (takenOver row.1 row.2).values, x.Within e := by
    intro row hr x hx
    have hspec := h row.1 (List.of_mem_zip hr).1
    simp only [takenOver, Parameter.values, List.mem_cons, List.not_mem_nil, or_false] at hx
    rcases hx with rfl | rfl | rfl | rfl
    · trivial
    · exact hspec _ (by simp [ParamSpec.values])
    · exact hspec _ (by simp [ParamSpec.values])
    · trivial
  have table (rows : List (ParamSpec × String)) (t : ParameterTable)
      (hrows : ∀ row ∈ rows, ∀ x ∈ (takenOver row.1 row.2).values, x.Within e)
      (ht : ∀ p ∈ t, ∀ x ∈ p.2.values, x.Within e) :
      ∀ p ∈ declaredTable rows t, ∀ x ∈ p.2.values, x.Within e := by
    induction rows generalizing t with
    | nil => exact ht
    | cons row rows ih =>
      refine ih _ (fun row hr => hrows row (List.mem_cons_of_mem _ hr)) fun p hp x hx => ?_
      rcases Table.mem_insert hp with hm | rfl
      · exact ht p hm x hx
      · exact hrows row List.mem_cons_self x hx
  exact table _ _ written ht

theorem tells_alike (hd : w.HoldsData C) (hr : w.Retains v C) (hr' : w.Retains v' C)
    (hx : ∀ x ∈ D.values, x.Within (w.data C)) (hnames : w.textsOf D.params = .ok names)
    (hschema : w.servedSchema D.params = .ok schema) (hexposes : Exposes v' v' q schema)
    (he : v.functionTells (Naming.className text "") (functionCard D text names []) .schema =
      .ok exported) :
    ∃ name description properties required, (text ≠ "" → name = text) ∧
      (Table.keys properties).Nodup ∧ exported = .exported name description properties ∧
      v'.servingTells (Naming.className text "") (servingCard D text q) .listing =
        .ok (.listed name description properties required) ∧
      v'.servingTells (Naming.className text "") (servingCard D text q) .schema =
        .ok (.schema [(.str "type", .str "object"), (.str "properties", .ofNamed properties),
          (.str "required", .list (required.map .str))]) := by
  obtain ⟨rows, hrows, hproperties, -⟩ := of_servedSchema hschema
  rw [textsOf_publishedRows hrows] at hnames
  cases hnames
  have hspecs : ∀ spec ∈ D.params, ∀ x ∈ spec.values, x.Within (w.data C) := fun spec hs x hm =>
    hx x (List.mem_cons_of_mem _ (List.mem_cons_of_mem _ (List.mem_flatMap.mpr ⟨spec, hs, hm⟩)))
  have hdescription : D.description.Within (w.data C) :=
    hx _ (List.mem_cons_of_mem _ List.mem_cons_self)
  have hcard : (functionCard D text (Table.keys rows) []).IsData w C :=
    ⟨trivial, hdescription, values_declaredTable hspecs (by simp)⟩
  have hwithin := within_servedSchema
    (fun spec hs => hspecs spec hs _ (by simp [ParamSpec.values])) hschema
  have htexts : (Value.list (schema.required.map .str)).Within (w.data C) := by
    refine Value.withinItems_iff.mpr fun x hx => ?_
    obtain ⟨name, _, rfl⟩ := List.mem_map.mp hx
    trivial
  have hshown : v'.exposed (cellValue q.properties) = w.exposed (.ofRows schema.properties) ∧
      v'.exposed (cellValue q.required) = w.exposed (.list (schema.required.map .str)) :=
    ⟨hexposes.properties.trans (hr'.exposed hd hwithin),
      hexposes.required.trans (hr'.exposed hd htexts)⟩
  obtain ⟨hall, hrequired⟩ := published_takenAs (takenAs_declaredTable hrows .nil)
  have hschemaOf : w.schemaOf (declaredTable (D.params.zip (Table.keys rows)) []) =
      .ok (parametersDocument schema.properties (Table.keys schema.properties)) := by
    have hnodup : (Table.keys (Table.ofRows rows)).Nodup := Table.nodup_keys_ofRows rows
    unfold schemaOf
    rw [show w.propertiesOf _ = .ok (Table.ofRows rows) from hall,
      show w.requiredOf _ = Table.keys (Table.ofRows rows) from hrequired, hproperties]
    show Except.ok (parametersDocument (Table.ofRows (Table.ofRows rows)) _) = _
    rw [Table.ofRows_of_nodup hnodup]
  rw [hr.functionTells hd hcard] at he
  have hdocument : w.functionDocument (Naming.className text "")
      (functionCard D text (Table.keys rows) []) = .ok (functionSchema (.str (titleText text))
        (w.orBlank D.description)
        (parametersDocument schema.properties (Table.keys schema.properties))) := by
    unfold functionDocument
    rw [show w.schemaOf (functionCard D text (Table.keys rows) []).parameters = _ from hschemaOf]
    show Except.ok (functionSchema (w.titleOf _ (.str text)) _ _) = _
    rw [titleOf_text]
    rfl
  unfold functionTells at he
  rw [hdocument] at he
  obtain ⟨description, properties, htold, hlisted, hkeys, rfl⟩ := Answer.of_exported he
  refine ⟨titleText text, description, properties, schema.required, fun hne => if_neg hne, ?_, rfl,
    ?_, ?_⟩
  · rw [hkeys, hproperties]
    exact Table.nodup_keys_ofRows rows
  · show Answer.ofValue v' _ = _
    rw [← Answer.ofValue_listed htold hlisted]
    refine Answer.ofValue_data hd (listingEntry_within trivial (orBlank_within hdescription)
      (schemaDocument_within hwithin htexts)) ?_
    unfold listingDocument
    rw [show v'.titleOf _ (servingCard D text q).name = _ from titleOf_text v' text,
      show v'.orBlank (servingCard D text q).description = _ from hr'.orBlank hd hdescription]
    exact exposed_listingEntry ((exposed_str v' _).trans (exposed_str w _).symm)
      (hr'.exposed hd (orEmpty_within (orBlank_within hdescription)))
      (exposed_schemaDocument hshown.1 hshown.2)
  · rw [← Answer.ofValue_inputSchema hlisted (Answer.ofValue_texts w schema.required)]
    have hitems : Value.WithinItems (w.data C)
        [.ofRows schema.properties, .list (schema.required.map .str)] := ⟨hwithin, htexts, trivial⟩
    refine Answer.ofValue_record (by rintro n name ⟨⟩) hd hitems ?_
    rw [exposed_record, exposed_record, exposedItems_cons, exposedItems_cons, exposedItems_cons,
      exposedItems_cons, exposedItems_nil, exposedItems_nil]
    rw [show v'.exposed (servingCard D text q).fields.1 = _ from hshown.1,
      show v'.exposed (servingCard D text q).fields.2 = _ from hshown.2]

end World

namespace Session

open Machine

variable {w w' : World} {d d' c c' : String} {p p' : Draft} {D : Definition Stored}
  {C C' : Nat → Prop} {base base' : Option String} {b b' : ClassRef} {s : Shelf} {t : ParameterTable}
  {config : Option ConfigDraft} {answer answer' exported : Answer}

theorem MeetsFunctionHost.host_toLlm (h : MeetsFunctionHost w d p D C base b s t)
    (ha : (perform w (.toLlm (some d) c base)).1.outcome = .ok answer) :
    ∃ v text names s', (perform w (.toLlm (some d) c base)).2 = v ∧
      (∀ C', w.HoldsData C' → w.Retains v C') ∧ v.Bundled ∧
      Table.find? v.classIds c = some (.made w.classes.length) ∧
      w.textOf D.name = .ok text ∧ w.textsOf D.params = .ok names ∧
      v.className (.made w.classes.length) = Naming.className text "" ∧
      v.FunctionHost w.classes.length (functionCard D text names t) s' C := by
  obtain ⟨u, text, names, rows, hl, hv, htext, hnames, htool, -⟩ :=
    perform_toLlm h.toHolds h.host h.bases ha
  have hr := hl.retains h.data fun _ _ => id
  have hdescription : D.description.Within (w.data C) :=
    (h.values _ (List.mem_cons_of_mem _ List.mem_cons_self)).1
  have hhost := (htool.named { u.names with
    classes := Table.insert c (.made w.classes.length) w.classIds }).functionHost
      (hdescription.mono hr.data_below)
  exact ⟨_, text, names, _, hv,
    fun _ hd => { hl.retains hd fun _ _ => id with }, (hl.bundled h.bundled).named _,
    (Table.find?_insert _ _ _ _).trans (if_pos rfl), htext, hnames, hhost.2, hhost.1⟩

theorem MeetsServingHost.host_toMcp (h : MeetsServingHost w d p D C base b)
    (ha : (perform w (.toMcp (some d) c base config)).1.outcome = .ok answer) :
    ∃ v n text q schema C', (perform w (.toMcp (some d) c base config)).2 = v ∧
      (∀ C', w.HoldsData C' → w.Retains v C') ∧ v.Bundled ∧ v.HoldsData C' ∧ Table.find? v.classIds c = some (.made n) ∧
      w.textOf D.name = .ok text ∧ w.servedSchema D.params = .ok schema ∧
      v.className (.made n) = Naming.className text "" ∧ World.Exposes v v q schema ∧
      v.ServingHost n (servingCard D text q) C' := by
  obtain ⟨u, n, text, schema, _, _, _, C', hl, -, hv, -, -, htext, hschema, hd, hC, -, htool⟩ :=
    perform_toMcp h.toHolds h.host h.bases ha
  have hr := hl.retains h.data fun _ _ => id
  have hdescription : D.description.Within (w.data C) :=
    (h.values _ (List.mem_cons_of_mem _ List.mem_cons_self)).1
  let ids : World.Names := { u.names with classes := Table.insert c (.made (n + 1)) w.classIds }
  obtain ⟨q, hhost, hname, hexposes⟩ := (htool.named ids).servingHost
    ((hl.servingBase h.host).named ids)
    ((hdescription.mono hr.data_below).mono (u.data_mono hC))
  exact ⟨_, n + 1, text, q, schema, C', hv, fun _ hd => { hl.retains hd fun _ _ => id with },
    (hl.bundled h.bundled).named _, hd.named _, (Table.find?_insert _ _ _ _).trans (if_pos rfl), htext, hschema, hname, hexposes, hhost⟩

/-- A definition that was adapted for hosts of both kinds is published under one name, with one
description and with the same properties in the same order, and the one host requires all of them. -/
theorem hosts_publish_alike (h : MeetsFunctionHost w d p D C base b s [])
    (h' : MeetsServingHost w' d' p' D C' base' b') (hsame : w.Retains w' C ∨ w'.Retains w C')
    (hl : (perform w (.toLlm (some d) c base)).1.outcome = .ok answer)
    (hs : (perform w' (.toMcp (some d') c' base' config)).1.outcome = .ok answer')
    (he : (perform (perform w (.toLlm (some d) c base)).2
      (.callClass c "to_json_schema" [] [])).1.outcome = .ok exported) :
    ∃ text name description properties required, w.textOf D.name = .ok text ∧
      (text ≠ "" → name = text) ∧ (Table.keys properties).Nodup ∧
      exported = .exported name description properties ∧
      (perform (perform w' (.toMcp (some d') c' base' config)).2
        (.callClass c' "to_dict" [] [])).1.outcome =
          .ok (.listed name description properties required) ∧
      (perform (perform w' (.toMcp (some d') c' base' config)).2
        (.callClass c' "input_schema" [] [])).1.outcome =
          .ok (.schema [(.str "type", .str "object"), (.str "properties", .ofNamed properties),
            (.str "required", .list (required.map .str))]) := by
  obtain ⟨v, text, names, s', hv, hr, hb, hc, htext, hnames, hname, hhost⟩ := h.host_toLlm hl
  obtain ⟨v', n, text', q, schema, C₁, hv', hr', hb', hd', hc', htext', hschema, hname', hexposes,
    hhost'⟩ := h'.host_toMcp hs
  rw [hv] at he
  rw [hv']
  have hnamed : D.name.Within (w.data C) ∧ D.name.Within (w'.data C') :=
    ⟨(h.values _ List.mem_cons_self).1, (h'.values _ List.mem_cons_self).1⟩
  have hspecs : (∀ spec ∈ D.params, ∀ x ∈ spec.values, x.Within (w.data C)) ∧
      ∀ spec ∈ D.params, ∀ x ∈ spec.values, x.Within (w'.data C') := by
    have listed {spec : ParamSpec} (hs : spec ∈ D.params) {x : Value} (hx : x ∈ spec.values) :
        x ∈ D.values :=
      List.mem_cons_of_mem _ (List.mem_cons_of_mem _ (List.mem_flatMap.mpr ⟨spec, hs, hx⟩))
    exact ⟨fun spec hs x hx => (h.values x (listed hs hx)).1,
      fun spec hs x hx => (h'.values x (listed hs hx)).1⟩
  have he := (function_tells hb ((hr C h.data).holdsData h.data) hhost hc .schema).symm.trans he
  rw [hname] at he
  have htext₁ : text' = text := by
    refine Except.ok.inj (htext'.symm.trans (Eq.trans ?_ htext))
    rcases hsame with hsame | hsame
    · exact hsame.textOf h.data hnamed.1
    · exact (hsame.textOf h'.data hnamed.2).symm
  subst htext₁
  have tells (g : ServingGetter) : (perform v' (.callClass c' g.attribute [] [])).1.outcome =
      v'.servingTells (Naming.className text' "") (servingCard D text' q) g := by
    rw [serving_tells hb' hd' hhost' hc' g, hname']
  -- what the definition declares is read where it was adapted first
  have first : ∃ x C₂, World.HoldsData x C₂ ∧ x.Retains v C₂ ∧ x.Retains v' C₂ ∧
      (∀ y ∈ D.values, y.Within (x.data C₂)) ∧ x.textsOf D.params = .ok names ∧
      x.servedSchema D.params = .ok schema := by
    rcases hsame with hsame | hsame
    · refine ⟨w, C, h.data, hr C h.data, hsame.trans (hr' C (hsame.holdsData h.data)),
        fun x hx => (h.values x hx).1, hnames, ?_⟩
      rw [← hsame.servedSchema h.data hspecs.1, hschema]
    · refine ⟨w', C', h'.data, hsame.trans (hr C' (hsame.holdsData h'.data)), hr' C' h'.data,
        fun x hx => (h'.values x hx).1, ?_, hschema⟩
      rw [← hsame.textsOf h'.data fun spec hs => hspecs.2 spec hs _ (by simp [ParamSpec.values]),
        hnames]
  obtain ⟨x, C₂, hd, hv, hv', hvalues, hnames, hschema⟩ := first
  obtain ⟨name, description, properties, required, hname, hnodup, hexported, hlisting, hgiven⟩ :=
    World.tells_alike hd hv hv' hvalues hnames hschema hexposes he
  exact ⟨text', name, description, properties, required, htext, hname, hnodup, hexported,
    (tells .listing).trans hlisting, (tells .schema).trans hgiven⟩

def redeclaring : List Builder :=
  [.param { name := .str "1", description := .str "first" },
    .param { name := .str "path", required := .bool false },
    .param { name := .int 1, type := .str "integer" }]

set_option maxRecDepth 100000 in
theorem hosts_publish_alike_renaming : ∃ w p D C v a a' exported text name description properties
      required,
    MeetsFunctionHost w "d" p D C none functionClassRef ⟨0, []⟩ [] ∧
    (perform w (.toLlm (some "d") "L" none)).1.outcome = .ok a ∧
    (perform w (.toLlm (some "d") "L" none)).2 = v ∧
    MeetsServingHost v "d" p D C none servingClassRef ∧ (w.Retains v C ∨ v.Retains w C) ∧
    (perform v (.toMcp (some "d") "M" none none)).1.outcome = .ok a' ∧
    (perform v (.callClass "L" "to_json_schema" [] [])).1.outcome = .ok exported ∧
    w.textOf D.name = .ok text ∧ (text ≠ "" → name = text) ∧ (Table.keys properties).Nodup ∧
    exported = .exported name description properties ∧
    (perform (perform v (.toMcp (some "d") "M" none none)).2
      (.callClass "M" "to_dict" [] [])).1.outcome =
        .ok (.listed name description properties required) := by
  have defined : (perform start (.define "d" (.str "tool") none)).1.outcome.isOk = true := by
    decide +kernel
  have adapted : (perform (declaring (.str "tool") redeclaring)
      (.toLlm (some "d") "L" none)).1.outcome.isOk = true := by
    decide +kernel
  have served : (perform (perform (declaring (.str "tool") redeclaring)
      (.toLlm (some "d") "L" none)).2 (.toMcp (some "d") "M" none none)).1.outcome.isOk = true := by
    decide +kernel
  have told : (perform (perform (declaring (.str "tool") redeclaring)
      (.toLlm (some "d") "L" none)).2
        (.callClass "L" "to_json_schema" [] [])).1.outcome.isOk = true := by
    decide +kernel
  obtain ⟨p, D, C, x, hf, hm, -⟩ := declaring_meets redeclaring defined
  obtain ⟨answer, log, hl⟩ := exists_perform adapted
  obtain ⟨answer', log', hs⟩ := exists_perform served
  obtain ⟨exported, log'', he⟩ := exists_perform told
  have hm' := hm.after_toLlm hf hl
  have hl' : (perform (declaring (.str "tool") redeclaring) (.toLlm (some "d") "L" none)).1.outcome =
      .ok answer := by rw [hl]
  obtain ⟨v, _, _, _, hv, hr, -⟩ := hf.host_toLlm hl'
  rw [hv] at hm' hs he
  obtain ⟨text, name, description, properties, required, htext, hname, hnodup, hexported, hlisted, -⟩ :=
    hosts_publish_alike hf hm' (.inl (hr C hf.data)) hl' (by rw [hs]) (by rw [hv, he])
  exact ⟨_, p, D, C, v, answer, answer', exported, text, name, description, properties, required, hf,
    hl', hv, hm', .inl (hr C hf.data), by rw [hs], by rw [he], htext, hname, hnodup, hexported,
    hlisted⟩

end Session

end Toolwright
