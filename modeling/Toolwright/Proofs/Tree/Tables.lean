import Toolwright.Proofs.Tree.Reached

/-!
# Tables of parameters

Whatever a session does, each class of a function-calling host keeps its parameters in a table under
their own names. A parameter that is declared again takes the place of the one of its name, and what
the class exports has the keys of the table, in their order.

What is declared on a class of a host is told by that class alone, wherever the others stand in the
tree. A class below one of a function-calling host starts with the parameters that are there at that
moment, a class below one of a serving host with nothing.
-/

namespace Toolwright

set_option autoImplicit false

/-! ## Tables of parameters -/

structure ParameterTable.Keyed (t : ParameterTable) : Prop where
  nodup : (Table.keys t).Nodup
  named : ∀ p ∈ t, p.2.name = p.1

namespace World

variable {w : World} {t : ParameterTable} {s : Shelf} {C : Nat → Prop}

theorem Shelves.keyed (h : w.Shelves s t C) : t.Keyed where
  nodup := h.names
  named p hp := by
    obtain ⟨row, -, hrow⟩ := forall₂_right h.rows hp
    exact hrow.name

def requiredKeys (w : World) (t : ParameterTable) : List String :=
  Table.keys (t.filter fun p => w.truthOf p.2.required)

theorem requiredKeys_sublist (w : World) (t : ParameterTable) :
    (w.requiredKeys t).Sublist (Table.keys t) :=
  List.filter_sublist.map _

theorem mem_requiredKeys {name : String} :
    name ∈ w.requiredKeys t ↔ ∃ p, (name, p) ∈ t ∧ w.truthOf p.required = true := by
  simp only [requiredKeys, Table.keys, List.mem_map, List.mem_filter]
  constructor
  · rintro ⟨p, ⟨hp, hrequired⟩, rfl⟩
    exact ⟨p.2, hp, hrequired⟩
  · rintro ⟨p, hp, hrequired⟩
    exact ⟨(name, p), ⟨hp, hrequired⟩, rfl⟩

theorem requiredOf_keyed (h : t.Keyed) : w.requiredOf t = w.requiredKeys t := by
  unfold requiredOf requiredKeys Table.keys
  rw [List.filter_map, List.map_map]
  exact List.map_congr_left fun p hp => h.named p (List.mem_of_mem_filter hp)

theorem propertiesOf_keys {rows : Named} (h : t.Keyed) (hrows : w.propertiesOf t = .ok rows) :
    Table.keys rows = Table.keys t := by
  have all (t : ParameterTable) (hn : ∀ p ∈ t, p.2.name = p.1) {rows : Named}
      (hrows : w.propertiesOf t = .ok rows) : Table.keys rows = Table.keys t := by
    unfold propertiesOf at hrows
    induction t generalizing rows with
    | nil =>
      cases hrows
      rfl
    | cons p t ih =>
      obtain ⟨row, rest, hrow, hrest, rfl⟩ := of_mapM_cons_ok hrows
      obtain ⟨property, -, hrow⟩ := of_bind_ok hrow
      cases hrow
      show p.2.name :: Table.keys rest = p.1 :: Table.keys t
      rw [hn p List.mem_cons_self, ih (fun q hq => hn q (List.mem_cons_of_mem _ hq)) hrest]
  exact all t h.named hrows

end World

namespace Answer

variable {w : World} {a : Answer}

def Names (p : String × Parameter) (row : String × Answer) : Prop :=
  row.1 = p.1 ∧ ∃ fields, row.2 = .param (.str p.2.name :: fields)

theorem of_ofValue_parameter {p : Parameter}
    (h : ofValue w (.record .toolParameter p.values) = .ok a) :
    ∃ fields, a = .param (.str p.name :: fields) := by
  unfold ofValue Parameter.values at h
  rw [World.exposed_record, World.exposedItems_cons, World.exposed_str] at h
  obtain ⟨x, hx, h⟩ := of_bind_ok h
  obtain ⟨xs, hxs, hx⟩ := of_bind_ok hx
  obtain ⟨name, hname, hxs⟩ := of_bind_ok hxs
  obtain ⟨ys, -, hxs⟩ := of_bind_ok hxs
  cases hname
  cases hxs
  cases hx
  rw [ofParts] at h
  obtain ⟨told, htold, h⟩ := of_bind_ok h
  rw [ofItems] at htold
  obtain ⟨first, hfirst, htold⟩ := of_bind_ok htold
  obtain ⟨rest, -, htold⟩ := of_bind_ok htold
  cases hfirst
  cases htold
  cases h
  exact ⟨rest, rfl⟩

theorem of_ofValue_table {t : ParameterTable}
    (h : ofValue w (.dict (World.recordRows .toolParameter t.records)) = .ok a) :
    ∃ told, a = ofNamed told ∧ List.Forall₂ Names t told := by
  induction t generalizing a with
  | nil =>
    cases (ofValue_nil w).symm.trans h
    exact ⟨[], rfl, .nil⟩
  | cons p t ih =>
    obtain ⟨first, rest, hfirst, hrest, rfl⟩ := of_ofValue_cons h
    obtain ⟨told, hrest, hall⟩ := ih hrest
    obtain ⟨fields, rfl⟩ := of_ofValue_parameter hfirst
    refine ⟨(p.1, .param (.str p.2.name :: fields)) :: told, ?_, .cons ⟨rfl, fields, rfl⟩ hall⟩
    cases hrest
    rfl

end Answer

namespace Session

variable {w v : World} {l : Ledger} {C : Nat → Prop} {n : Nat} {c : String} {card : FunctionCard}
  {s : Shelf}

/-- A class that answers with the parameters of a table, and exports them. -/
structure TellsTable (w : World) (c : String) (t : ParameterTable) : Prop where
  keyed : t.Keyed
  answered : (perform w (.callClass c "parameters" [] [])).1.outcome =
    Answer.ofValue w (.dict (World.recordRows .toolParameter t.records))
  listed : ∀ a, (perform w (.callClass c "parameters" [] [])).1.outcome = .ok a →
    ∃ told, a = .ofNamed told ∧ List.Forall₂ Answer.Names t told
  document : ∃ className title description,
    (perform w (.callClass c "to_json_schema" [] [])).1.outcome =
      (w.functionDocument className ⟨title, description, t⟩).bind (Answer.ofValue w)
  exported : ∀ a, (perform w (.callClass c "to_json_schema" [] [])).1.outcome = .ok a →
    ∃ title description properties,
      a = .exporting title description properties (w.requiredKeys t) ∧
        Table.keys properties = Table.keys t

theorem tells_table (h : w.Follows l C) (hc : Table.find? w.classIds c = some (.made n))
    (hn : l (.cls n) = some (.function card s)) : TellsTable w c card.parameters := by
  cases h.enters _ _ hn with
  | function hf =>
  have tells (g : FunctionGetter) := function_tells h.bundled h.data hf.toFunctionHost hc g
  have keyed := hf.shelf.keyed
  have hschema : (perform w (.callClass c "to_json_schema" [] [])).1.outcome =
      (w.functionDocument (w.className (.made n)) card).bind (Answer.ofValue w) := tells .schema
  refine ⟨keyed, tells .parameters, fun a ha => ?_, ⟨_, _, _, hschema⟩, fun a ha => ?_⟩
  · exact Answer.of_ofValue_table ((tells .parameters).symm.trans ha)
  · rw [hschema] at ha
    obtain ⟨x, hx, ha⟩ := of_bind_ok ha
    obtain ⟨schema, hs, hx⟩ := of_bind_ok hx
    obtain ⟨rows, hrows, hs⟩ := of_bind_ok hs
    cases hs
    cases hx
    obtain ⟨title, description, properties, -, -, -, hkeys, rfl⟩ := Answer.of_exporting ha
    have hall := World.propertiesOf_keys keyed hrows
    refine ⟨title, description, properties, ?_, ?_⟩
    · rw [World.requiredOf_keyed keyed]
    · rw [hkeys, Table.ofRows_of_nodup (hall ▸ keyed.nodup), hall]

theorem perform_param (h : w.Follows l C) (hc : Table.find? w.classIds c = some (.made n))
    (hn : l (.cls n) = some (.function card s)) (args : List Literal) (named : Literal.Rows) :
    ((∃ f, (perform w (.callClass c "param" args named)).1.outcome = .error f) ∧
      TellsTable (perform w (.callClass c "param" args named)).2 c card.parameters) ∨
    ((perform w (.callClass c "param" args named)).1.outcome = .ok .null ∧
      ∃ arg u text, Binds { w with log := [] } args named .param arg u ∧
        u.textOf (arg "name") = .ok text ∧
        TellsTable (perform w (.callClass c "param" args named)).2 c
          (Table.insert text ⟨text, arg "type", arg "desc", arg "required"⟩ card.parameters)) := by
  let step : Step := .callClass c "param" args named
  have logged := h.advances_log []
  rw [perform_eq]
  have told : (perform w step).1.outcome = ((machine.step step).exec { w with log := [] }).1.bind
    (Answer.ofValue ((machine.step step).exec { w with log := [] }).2) := rfl
  rw [show (perform w (.callClass c "param" args named)).1.outcome = _ from told]
  cases hr : (machine.step step).exec { w with log := [] } with
  | mk x v =>
  obtain ⟨hnames, hcases⟩ := advances_param logged.follows hc hn hr
  have hc' : Table.find? v.classIds c = some (.made n) := by
    rw [show v.classIds = w.classIds from congrArg World.Names.classes hnames, hc]
  rcases hcases with ⟨⟨f, rfl⟩, C', ha⟩ | ⟨arg, u, text, s', C', rfl, hbinds, htext, ha⟩
  · exact .inl ⟨⟨f, rfl⟩, tells_table ha.follows hc' hn⟩
  · exact .inr ⟨rfl, arg, u, text, hbinds, htext,
      tells_table ha.follows hc' (Ledger.enter_self l _ _)⟩

/-- Whatever a session did with classes of hosts, each class of a function-calling host tells a table
of parameters and exports it. A parameter that is declared on it takes the place of the one of its
name, or comes last. -/
theorem reached_parameters {b : ClassRef} (h : Reached w) (hc : Table.find? w.classIds c = some b)
    (hline : functionClassRef ∈ w.lineage b) : ∃ t, TellsTable w c t ∧
      (∀ name, name ∈ w.requiredKeys t ↔
        ∃ p, (name, p) ∈ t ∧ w.truthOf p.required = true) ∧
      (w.requiredKeys t).Sublist (Table.keys t) ∧ (w.requiredKeys t).Nodup ∧
      ∀ args named,
        ((∃ f, (perform w (.callClass c "param" args named)).1.outcome = .error f) ∧
          TellsTable (perform w (.callClass c "param" args named)).2 c t) ∨
        ((perform w (.callClass c "param" args named)).1.outcome = .ok .null ∧
          ∃ arg u text t', Binds { w with log := [] } args named .param arg u ∧
            u.textOf (arg "name") = .ok text ∧
            TellsTable (perform w (.callClass c "param" args named)).2 c t' ∧
            Table.keys t' =
              (if text ∈ Table.keys t then Table.keys t else Table.keys t ++ [text]) ∧
            Table.find? t' text = some ⟨text, arg "type", arg "desc", arg "required"⟩ ∧
            ∀ name, name ≠ text → Table.find? t' name = Table.find? t name) := by
  obtain ⟨l, C, hf⟩ := h.follows
  obtain ⟨n, a, rfl, hn⟩ := hf.classes c b hc
  obtain ⟨card, s, rfl, -⟩ := hf.function_of_line hn hline
  have told := tells_table hf hc hn
  have sub := w.requiredKeys_sublist card.parameters
  refine ⟨card.parameters, told, fun name => w.mem_requiredKeys, sub, told.keyed.nodup.sublist sub,
    fun args named => ?_⟩
  rcases perform_param hf hc hn args named with herror | ⟨hok, arg, u, text, hbinds, htext, htold⟩
  · exact .inl herror
  · exact .inr ⟨hok, arg, u, text, _, hbinds, htext, htold, Table.keys_insert _ _ _,
      (Table.find?_insert _ _ _ _).trans (if_pos rfl),
      fun name hne => (Table.find?_insert _ _ _ _).trans (if_neg (Ne.symm hne))⟩

theorem spares_nil (names : List String) : Spares [] names where
  keys _ _ := List.not_mem_nil
  slots w v named x given hrows hslots := by
    cases hrows
    cases hslots

def declaredBelow : World :=
  (perform (perform { start with logFrom := 30 } (.subclass "S" (some "LLMTool") "S" [] none none)).2
    (.callClass "S" "param" [.str "path"] [("required", .bool true)])).2

theorem reached_declaredBelow : Reached declaredBelow := by
  have base : OfFunctions { start with logFrom := 30 } "LLMTool" := by
    intro b hb
    cases hb
    decide
  have own : OfFunctions (perform { start with logFrom := 30 }
      (.subclass "S" (some "LLMTool") "S" [] none none)).2 "S" := by
    intro b hb
    have named : Table.find? (perform { start with logFrom := 30 }
      (.subclass "S" (some "LLMTool") "S" [] none none)).2.classIds "S" = some (.made 9) := by
      decide +kernel
    cases named.symm.trans hb
    decide +kernel
  exact .step (.step (.start 30) (.function _ _ _ _ _ base (spares_nil _))) (.param _ _ own)

set_option maxRecDepth 100000 in
theorem declaredBelow_named : Table.find? declaredBelow.classIds "S" = some (.made 9) ∧
    functionClassRef ∈ declaredBelow.lineage (.made 9) := by
  decide +kernel

theorem reached_parameters_below : Reached declaredBelow ∧
    Table.find? declaredBelow.classIds "S" = some (.made 9) ∧
    functionClassRef ∈ declaredBelow.lineage (.made 9) ∧
    ∃ t, TellsTable declaredBelow "S" t ∧ (declaredBelow.requiredKeys t).Nodup := by
  obtain ⟨named, below⟩ := declaredBelow_named
  obtain ⟨t, ht, -, -, hnodup, -⟩ := reached_parameters reached_declaredBelow named below
  exact ⟨reached_declaredBelow, named, below, t, ht, hnodup⟩

def keptBelow : List Step :=
  [.define "d" (.str "tool") none,
    .help (some "d") .ofInstance "__init_subclass__"
      (.mk [] none (.setAttr "_parameters" (.lit (.dict [(.str "a", .int 1)])))),
    .toLlm (some "d") "L" none, .subclass "S" (some "L") "S" [] none none,
    .callClass "S" "parameters" [] []]

def numbersTold (reply : Reply) : List (String × Int) :=
  match reply.outcome with
  | .ok (.dict rows) => rows.filterMap fun
    | (.str name, .int n) => some (name, n)
    | _ => none
  | _ => []

set_option maxRecDepth 100000 in
/-- A class below one that was adapted with such a helper has something else than a parameter among its
parameters. -/
theorem keptBelow_parameters :
    (replies 30 keptBelow).map numbersTold = [[], [], [], [], [("a", 1)]] := by
  decide +kernel

end Session

/-! ## Declarations are per class -/

namespace Session

variable {w v : World} {l l' : Ledger} {C C' : Nat → Prop} {R : Owner → Prop} {n : Nat} {c c' : String}
  {card : FunctionCard} {s : Shelf} {served : ServingCard} {cell : Option Nat}

theorem advances_function_tells (h : w.Follows l C) (ha : w.Advances l C v l' C' R)
    (hR : ¬ R (.cls n)) (hn : l (.cls n) = some (.function card s))
    (hc : Table.find? w.classIds c = some (.made n))
    (hc' : Table.find? v.classIds c' = some (.made n)) (g : FunctionGetter) :
    (perform v (.callClass c' g.attribute [] [])).1.outcome =
      (perform w (.callClass c g.attribute [] [])).1.outcome := by
  have hn' : l' (.cls n) = some (.function card s) := (ha.others _ hR).trans hn
  cases h.enters _ _ hn with
  | function hf =>
  cases ha.follows.enters _ _ hn' with
  | function hf' =>
  rw [function_tells ha.follows.bundled ha.follows.data hf'.toFunctionHost hc' g,
    function_tells h.bundled h.data hf.toFunctionHost hc g, ha.leads.className hf.methods.rooted,
    ha.retains.functionTells h.data hf.isData]

theorem advances_serving_tells (h : w.Follows l C) (ha : w.Advances l C v l' C' R)
    (hR : ¬ R (.cls n)) (hn : l (.cls n) = some (.serving served cell))
    (hc : Table.find? w.classIds c = some (.made n))
    (hc' : Table.find? v.classIds c' = some (.made n)) (g : ServingGetter) :
    (perform v (.callClass c' g.attribute [] [])).1.outcome =
      (perform w (.callClass c g.attribute [] [])).1.outcome := by
  have hn' : l' (.cls n) = some (.serving served cell) := (ha.others _ hR).trans hn
  cases h.enters _ _ hn with
  | serving hf =>
  cases ha.follows.enters _ _ hn' with
  | serving hf' =>
  rw [serving_tells ha.follows.bundled ha.follows.data hf'.toServingHost hc' g,
    serving_tells h.bundled h.data hf.toServingHost hc g, ha.leads.className hf.methods.rooted,
    ha.retains.servingTells h.data hf.isData]

theorem perform_declaration (h : w.Follows l C) (hc : Table.find? w.classIds c = some (.made n))
    {step : Step} (hs : DeclaresOn w c step) : (perform w step).2.names = w.names ∧
      ∃ l' C', w.Advances l C (perform w step).2 l' C' (· = .cls n) := by
  have logged := h.advances_log []
  rw [perform_eq]
  obtain ⟨hnames, l', C', ha⟩ := advances_declaration logged.follows hc (hs.log []) rfl
  exact ⟨hnames, l', C', (logged.mono fun _ => False.elim).trans ha⟩

/-! ## New classes -/

/-- A class that is made below another one has the parameters of that one, a name that is made of its
own, and no description. -/
structure StartsBelow (w v : World) (base id name : String) : Prop where
  parameters : (perform v (.callClass id "parameters" [] [])).1.outcome =
    (perform w (.callClass base "parameters" [] [])).1.outcome
  title : (perform v (.callClass id "tool_name" [] [])).1.outcome =
    .ok (.str (Naming.toolName name))
  description : (perform v (.callClass id "description" [] [])).1.outcome = .ok .null

/-- A class that has the empty schema, a name that is made of its own, and no description. -/
structure StartsEmpty (v : World) (id name : String) : Prop where
  schema : (perform v (.callClass id "input_schema" [] [])).1.outcome =
    .ok (.schema [(.str "type", .str "object"), (.str "properties", .dict []),
      (.str "required", .list [])])
  title : (perform v (.callClass id "tool_name" [] [])).1.outcome =
    .ok (.str (Naming.toolName name))
  description : (perform v (.callClass id "description" [] [])).1.outcome = .ok .null

variable {b : ClassRef} {base id name : String} {attributes : Literal.Rows} {response : Option String}
  {execute : Option Block} {answer : Answer}

theorem startsBelow (h : w.Follows l C) (hb : Table.find? w.classIds base = some (.made n))
    (hn : l (.cls n) = some (.function card s)) (hs : Spares attributes functionNames)
    (ha : (perform w (.subclass id (some base) name attributes response execute)).1.outcome =
      .ok answer) :
    StartsBelow w (perform w (.subclass id (some base) name attributes response execute)).2 base id
      name := by
  obtain ⟨x, hr⟩ := of_perform_ok ha
  generalize (perform w (.subclass id (some base) name attributes response execute)).2 = v at hr
  have logged := h.advances_log []
  obtain ⟨⟨f, hx⟩, -⟩ | ⟨m, a, C', -, -, ⟨s', rfl⟩, hadv, hid, hname⟩ :=
    advances_subclass_function logged.follows hb hn hs hr
  · cases hx
  have hm := Ledger.enter_self l (.cls m) (.function ⟨.null, .null, card.parameters⟩ s')
  cases h.enters _ _ hn with
  | function hf =>
  cases hadv.follows.enters _ _ hm with
  | function hf' =>
  have tells (g : FunctionGetter) : (perform v (.callClass id g.attribute [] [])).1.outcome =
      v.functionTells name ⟨.null, .null, card.parameters⟩ g := by
    rw [function_tells hadv.follows.bundled hadv.follows.data hf'.toFunctionHost hid g, hname]
  have hr := ((logged.mono fun _ => False.elim).trans hadv).retains
  have hcard : (FunctionCard.mk .null .null card.parameters).IsData w C :=
    ⟨trivial, trivial, hf.isData.parameters⟩
  refine ⟨(tells .parameters).trans ?_, tells .title, tells .description⟩
  rw [hr.functionTells h.data hcard name .parameters]
  exact (function_tells h.bundled h.data hf.toFunctionHost hb .parameters).symm

theorem startsEmpty (h : w.Follows l C) (hb : Table.find? w.classIds base = some (.made n))
    (hn : l (.cls n) = some (.serving served cell)) (hs : Spares attributes servingNames)
    (ha : (perform w (.subclass id (some base) name attributes response execute)).1.outcome =
      .ok answer) :
    StartsEmpty (perform w (.subclass id (some base) name attributes response execute)).2 id
      name := by
  obtain ⟨x, hr⟩ := of_perform_ok ha
  generalize (perform w (.subclass id (some base) name attributes response execute)).2 = v at hr
  have logged := h.advances_log []
  obtain ⟨⟨f, hx⟩, -⟩ | ⟨m, a, C', -, -, rfl, hadv, hid, hname⟩ :=
    advances_subclass_serving logged.follows hb hn hs hr
  · cases hx
  cases hadv.follows.enters _ _ (Ledger.enter_self l (.cls m) _) with
  | serving hf' =>
  have tells (g : ServingGetter) : (perform v (.callClass id g.attribute [] [])).1.outcome =
      v.servingTells name ⟨.null, .null, none⟩ g := by
    rw [serving_tells hadv.follows.bundled hadv.follows.data hf'.toServingHost hid g, hname]
  exact ⟨(tells .schema).trans
    (Answer.ofValue_inputSchema (Answer.ofValue_nil v) (Answer.ofValue_texts v [])),
    tells .title, tells .description⟩

/-- Whatever a session did with classes of hosts, what is declared on one of them is told by no other
one, and a new class starts with what is there above it, or with nothing. -/
theorem reached_per_class (h : Reached w) :
    (∀ c b c' b' step, Table.find? w.classIds c = some b → Table.find? w.classIds c' = some b' →
      b ≠ b' → DeclaresOn w c step →
      (functionClassRef ∈ w.lineage b' → ∀ g : FunctionGetter,
        (perform (perform w step).2 (.callClass c' g.attribute [] [])).1.outcome =
          (perform w (.callClass c' g.attribute [] [])).1.outcome) ∧
      (servingClassRef ∈ w.lineage b' → ∀ g : ServingGetter,
        (perform (perform w step).2 (.callClass c' g.attribute [] [])).1.outcome =
          (perform w (.callClass c' g.attribute [] [])).1.outcome)) ∧
    ∀ id base b name attributes response execute answer, Table.find? w.classIds base = some b →
      (perform w (.subclass id (some base) name attributes response execute)).1.outcome =
        .ok answer →
      (functionClassRef ∈ w.lineage b → Spares attributes functionNames → StartsBelow w
        (perform w (.subclass id (some base) name attributes response execute)).2 base id name) ∧
      (servingClassRef ∈ w.lineage b → Spares attributes servingNames → StartsEmpty
        (perform w (.subclass id (some base) name attributes response execute)).2 id name) := by
  obtain ⟨l, C, hf⟩ := h.follows
  refine ⟨fun c b c' b' step hc hc' hne hs => ?_, fun id base b name attributes response execute
    answer hb ha => ?_⟩
  · obtain ⟨n, a, rfl, -⟩ := hf.classes c b hc
    obtain ⟨m, a', rfl, hm⟩ := hf.classes c' b' hc'
    obtain ⟨hnames, l', C', hadv⟩ := perform_declaration hf hc hs
    have hother : ¬ (Owner.cls m = .cls n) := fun he => hne (by cases he; rfl)
    have hc'' : Table.find? (perform w step).2.classIds c' = some (.made m) := by
      rw [← hc']
      exact congrArg (fun names : World.Names => Table.find? names.classes c') hnames
    refine ⟨fun hline g => ?_, fun hline g => ?_⟩
    · obtain ⟨card, s, rfl, -⟩ := hf.function_of_line hm hline
      exact advances_function_tells hf hadv hother hm hc' hc'' g
    · obtain ⟨card, cell, rfl, -⟩ := hf.serving_of_line hm hline
      exact advances_serving_tells hf hadv hother hm hc' hc'' g
  · obtain ⟨n, a, rfl, hn⟩ := hf.classes base b hb
    refine ⟨fun hline hs => ?_, fun hline hs => ?_⟩
    · obtain ⟨card, s, rfl, -⟩ := hf.function_of_line hn hline
      exact startsBelow hf hb hn hs ha
    · obtain ⟨card, cell, rfl, -⟩ := hf.serving_of_line hn hline
      exact startsEmpty hf hb hn hs ha

set_option maxRecDepth 100000 in
/-- A parameter that is declared on the class of the host is none of a class below it, and a class below
that one starts with what it tells. -/
theorem reached_per_class_below : Reached declaredBelow ∧
    (perform (perform declaredBelow (.callClass "LLMTool" "param" [.str "late"] [])).2
      (.callClass "S" "parameters" [] [])).1.outcome =
        (perform declaredBelow (.callClass "S" "parameters" [] [])).1.outcome ∧
    StartsBelow declaredBelow (perform declaredBelow (.subclass "T" (some "S") "HTTPTool" [] none none)).2
      "S" "T" "HTTPTool" := by
  obtain ⟨named, below⟩ := declaredBelow_named
  have host : Table.find? declaredBelow.classIds "LLMTool" = some functionClassRef := by
    decide +kernel
  have line : functionClassRef ∈ declaredBelow.lineage functionClassRef := by decide +kernel
  have declares : DeclaresOn declaredBelow "LLMTool" (.callClass "LLMTool" "param" [.str "late"] []) :=
    .param _ _ fun b hb => Option.some.inj (host.symm.trans hb) ▸ line
  have made : (perform declaredBelow
      (.subclass "T" (some "S") "HTTPTool" [] none none)).1.outcome.isOk = true := by
    decide +kernel
  obtain ⟨answer, log, hm⟩ := exists_perform made
  obtain ⟨others, starts⟩ := reached_per_class reached_declaredBelow
  refine ⟨reached_declaredBelow, ?_, ?_⟩
  · rw [show "parameters" = FunctionGetter.parameters.attribute from rfl]
    exact (others _ _ _ _ _ host named (by decide) declares).1 below .parameters
  · exact (starts _ _ _ _ _ _ _ answer named (by rw [hm])).1 below (spares_nil _)

end Session

end Toolwright
