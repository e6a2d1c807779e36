import Toolwright.Proofs.Tree.Adaptations
import Toolwright.Proofs.Tree.Schemas
/-!
# Sessions with trees of classes
A session that starts afresh makes definitions and classes below those of the hosts, declares things of
them, registers hosts, and adapts definitions to classes of the hosts. Whatever it does, it keeps
account of all that it made.
-/

namespace Toolwright

set_option autoImplicit false

namespace World

variable {w v : World} {p : Draft} {D : Definition Stored} {l : Ledger} {C : Nat → Prop} {n : Nat}
  {a : Account}

/-! ## Helpers of a definition -/

def helperNames (w : World) (definition : Value) : List Value :=
  let tables := (w.kept definition "_helper_methods").toOption.getD .null
  ["instance", "class_scope"].flatMap fun field =>
    ((w.followed ((w.kept tables field).toOption.getD .null)).rows?.getD []).map (·.1)

theorem Drafts.helperNames (h : w.Drafts p D) : w.helperNames p.value =
    (Table.keys D.instanceHelpers ++ Table.keys D.classHelpers).map .str := by
  have keys {k : Nat} {helpers : List (String × Stored)}
      (hk : w.cells[k]? = some (.ofRows (helperRows helpers))) :
      ((w.followed (cellValue k)).rows?.getD []).map (·.1) = (Table.keys helpers).map .str := by
    rw [followed_cell hk]
    simp [Value.ofRows, Value.rows?, helperRows, Table.keys]
  unfold World.helperNames
  rw [show p.value = objectValue p.object from rfl, h.object.kept rfl]
  dsimp only [Except.toOption, Option.getD_some]
  rw [List.flatMap_cons, List.flatMap_cons, List.flatMap_nil, List.append_nil, h.table.kept rfl,
    h.table.kept rfl, List.map_append]
  exact congrArg₂ _ (keys h.ofInstance) (keys h.ofClass)

theorem Drafts.helper?_none (h : w.Drafts p D) {name : String}
    (hn : .str name ∉ w.helperNames p.value) : D.helper? name = none := by
  rw [h.helperNames, List.map_append, List.mem_append, not_or] at hn
  have absent {helpers : List (String × Stored)}
      (ha : Value.str name ∉ (Table.keys helpers).map .str) : Table.find? helpers name = none :=
    Table.find?_eq_none fun hm => ha (List.mem_map_of_mem hm)
  unfold Definition.helper?
  rw [absent hn.1, absent hn.2]
  rfl

/-! ## Kinds of classes -/

theorem Follows.function_of_line (h : w.Follows l C) (hn : l (.cls n) = some a)
    (hline : Session.functionClassRef ∈ w.lineage (.made n)) :
    ∃ card s, a = .function card s ∧ w.FunctionClass n card s C := by
  cases h.enters _ _ hn with
  | function hf => exact ⟨_, _, rfl, hf⟩
  | serving hs => exact absurd hline hs.line.2
  | plain hs => exact absurd hline hs.line.1

theorem Follows.serving_of_line (h : w.Follows l C) (hn : l (.cls n) = some a)
    (hline : Session.servingClassRef ∈ w.lineage (.made n)) :
    ∃ card cell, a = .serving card cell ∧ w.ServingClass n card cell C := by
  cases h.enters _ _ hn with
  | function hf => exact absurd hline hf.line.2
  | serving hs => exact ⟨_, _, rfl, hs⟩
  | plain hs => exact absurd hline hs.line.2

theorem Follows.plain_of_line (h : w.Follows l C) (hn : l (.cls n) = some a)
    (hline : Session.functionClassRef ∉ w.lineage (.made n) ∧
      Session.servingClassRef ∉ w.lineage (.made n)) : a = .plain := by
  cases h.enters _ _ hn with
  | function hf => exact absurd hf.line.1 hline.1
  | serving hs => exact absurd hs.line.1 hline.2
  | plain => rfl

end World

namespace Session

variable {w v : World} {l : Ledger} {C : Nat → Prop} {n : Nat} {c : String} {x : Except Fault Value}

/-! ## Questions -/

/-- A class of a function-calling host that is asked adds at most data, or a new table of its
parameters. -/
theorem advances_functionGetter (h : w.Follows l C) (hc : Table.find? w.classIds c = some (.made n))
    (hline : functionClassRef ∈ w.lineage (.made n)) (g : FunctionGetter)
    (hr : (machine.step (.callClass c g.attribute [] [])).exec w = (x, v)) :
    ∃ C', w.Advances l C v l C' fun _ => False := by
  obtain ⟨_, a, ⟨⟩, ha⟩ := h.classes c _ hc
  obtain ⟨card, s, rfl, hf⟩ := h.function_of_line ha hline
  rw [exec_getter hc] at hr
  have given {r : Except Fault Value} (hg : Run.Gives w C r (x, v)) :
      ∃ C', w.Advances l C v l C' fun _ => False := by
    cases hg with
    | ok _ hs => exact ⟨_, h.advances_gains hs.gains⟩
    | error f => exact ⟨C, .refl h _⟩
  cases g with
  | title =>
    cases (Machine.exec_sendName 998 h.data hf.toTitled).symm.trans hr
    exact ⟨C, .refl h _⟩
  | description =>
    cases (Machine.exec_sendOwnDescription 998 hf.toTitled).symm.trans hr
    exact ⟨C, .refl h _⟩
  | parameters =>
    cases (Machine.exec_sendParameters 997 h.bundled hf.toFunctionHost).symm.trans hr
    have hl := (World.Later.refl w fun _ => False).newCell (.ofRows (objectRows s.rows))
    exact ⟨C, h.advances_later hl ((hl.retains h.data fun _ _ => not_false).holdsData h.data)
      (fun _ => id) fun _ => .inl⟩
  | schema => exact given (hr ▸ Machine.exec_sendSchema 997 h.bundled h.data hf.toFunctionHost)
  | entry => exact given (hr ▸ Machine.exec_sendEntry 996 h.bundled h.data hf.toFunctionHost)

theorem advances_servingGetter (h : w.Follows l C) (hc : Table.find? w.classIds c = some (.made n))
    (hline : servingClassRef ∈ w.lineage (.made n)) (g : ServingGetter)
    (hr : (machine.step (.callClass c g.attribute [] [])).exec w = (x, v)) :
    ∃ C', w.Advances l C v l C' fun _ => False := by
  obtain ⟨_, a, ⟨⟩, ha⟩ := h.classes c _ hc
  obtain ⟨card, cell, rfl, hf⟩ := h.serving_of_line ha hline
  rw [exec_getter hc] at hr
  cases g with
  | title =>
    cases (Machine.exec_sendName 998 h.data hf.toTitled).symm.trans hr
    exact ⟨C, .refl h _⟩
  | description =>
    cases (Machine.exec_sendOwnDescription 998 hf.toTitled).symm.trans hr
    exact ⟨C, .refl h _⟩
  | schema =>
    obtain ⟨o, u, hsend, hgives⟩ :=
      Machine.exec_sendInputSchema 996 h.bundled h.data hf.toServingHost
    cases hsend.symm.trans hr
    exact ⟨_, h.advances_gains hgives.gains⟩
  | listing =>
    have hg := Machine.exec_sendListing 995 h.bundled h.data hf.toServingHost
    rw [show (((Machine.nested (995 + 4)).send _ "to_dict" [] []).exec w) = _ from hr] at hg
    cases hg with
    | ok _ hs => exact ⟨_, h.advances_gains hs.gains⟩

/-! ## Steps -/

/-- A class that is named, if it is, is of the function-calling host. -/
def OfFunctions (w : World) (c : String) : Prop :=
  ∀ b, Table.find? w.classIds c = some b → functionClassRef ∈ w.lineage b

/-- A class that is named, if it is, is of the serving host. -/
def OfServings (w : World) (c : String) : Prop :=
  ∀ b, Table.find? w.classIds c = some b → servingClassRef ∈ w.lineage b

/-- Steps that make definitions, classes of hosts and what these declare. No class is made that has
an attribute of its host of its own, and classes below an adapted one are told to its host. -/
inductive Orderly (w : World) : Step → Prop
  | define (id : String) (name : Literal) : Orderly w (.define id name none)
  | declare (id : String) (op : Builder) : Orderly w (op.step id)
  | function (id base name : String) {attributes : Literal.Rows} (response : Option String)
    (execute : Option Block) (hb : OfFunctions w base) (hs : Spares attributes functionNames) :
    Orderly w (.subclass id (some base) name attributes response execute)
  | serving (id base name : String) {attributes : Literal.Rows} (response : Option String)
    (execute : Option Block) (hb : OfServings w base) (hs : Spares attributes servingNames) :
    Orderly w (.subclass id (some base) name attributes response execute)
  | register (kind : String) (cls : Option String) : Orderly w (.register kind cls)
  | unregister (kind : String) : Orderly w (.unregister kind)
  | toLlm {d : String} (c : String) {base : Option String}
    (hd : ∀ x, Table.find? w.definitionIds d = some x → .str "__init_subclass__" ∉ w.helperNames x)
    (hb : ∀ b, Bases w llmHost base b → functionClassRef ∈ w.lineage b) :
    Orderly w (.toLlm (some d) c base)
  | toMcp (d c : String) {base : Option String} (config : Option ConfigDraft)
    (hb : ∀ b, Bases w mcpHost base b → servingClassRef ∈ w.lineage b) :
    Orderly w (.toMcp (some d) c base config)
  | title (c : String) {name : String} (args : List Literal) (named : Literal.Rows)
    (hn : name ∈ ["tool_name", "description"]) : Orderly w (.callClass c name args named)
  | param {c : String} (args : List Literal) (named : Literal.Rows) (hc : OfFunctions w c) :
    Orderly w (.callClass c "param" args named)
  | inputSchema {c : String} (args : List Literal) (named : Literal.Rows) (hc : OfServings w c) :
    Orderly w (.callClass c "input_schema" args named)
  | askFunction {c : String} (g : FunctionGetter) (hc : OfFunctions w c) :
    Orderly w (.callClass c g.attribute [] [])
  | askServing {c : String} (g : ServingGetter) (hc : OfServings w c) :
    Orderly w (.callClass c g.attribute [] [])

/-- Steps that declare something on a class. -/
inductive DeclaresOn (w : World) (c : String) : Step → Prop
  | title {name : String} (args : List Literal) (named : Literal.Rows)
    (hn : name ∈ ["tool_name", "description"]) : DeclaresOn w c (.callClass c name args named)
  | param (args : List Literal) (named : Literal.Rows) (hc : OfFunctions w c) :
    DeclaresOn w c (.callClass c "param" args named)
  | inputSchema (args : List Literal) (named : Literal.Rows) (hc : OfServings w c) :
    DeclaresOn w c (.callClass c "input_schema" args named)

theorem DeclaresOn.log {s : Step} (h : DeclaresOn w c s) (log : List Record) :
    DeclaresOn { w with log } c s := by
  cases h with
  | title args named hn => exact .title args named hn
  | param args named hc => exact .param args named hc
  | inputSchema args named hc => exact .inputSchema args named hc

theorem DeclaresOn.callClass {s : Step} (h : DeclaresOn w c s) :
    ∃ name args named, s = .callClass c name args named := by
  cases h <;> exact ⟨_, _, _, rfl⟩

theorem advances_declaration {s : Step} (h : w.Follows l C)
    (hc : Table.find? w.classIds c = some (.made n)) (hs : DeclaresOn w c s)
    (hr : (machine.step s).exec w = (x, v)) :
    v.names = w.names ∧ ∃ l' C', w.Advances l C v l' C' (· = .cls n) := by
  obtain ⟨n', a, hn', ha⟩ := h.classes c _ hc
  cases hn'
  cases hs with
  | title args named hn =>
    obtain ⟨hnames, a', C', hadv, -⟩ := advances_titling h hc ha hn hr
    exact ⟨hnames, _, C', hadv⟩
  | param args named hf =>
    obtain ⟨card, s, rfl, -⟩ := h.function_of_line ha (hf _ hc)
    obtain ⟨hnames, ⟨-, C', hadv⟩ | ⟨_, _, _, _, C', -, -, -, hadv⟩⟩ := advances_param h hc ha hr
    · exact ⟨hnames, l, C', hadv.mono fun _ => False.elim⟩
    · exact ⟨hnames, _, C', hadv⟩
  | inputSchema args named hf =>
    obtain ⟨card, cell, rfl, -⟩ := h.serving_of_line ha (hf _ hc)
    obtain ⟨hnames, ⟨C', hadv⟩ | ⟨_, _, _, C', -, hadv⟩⟩ := advances_inputSchema h hc ha hr
    · exact ⟨hnames, l, C', hadv.mono fun _ => False.elim⟩
    · exact ⟨hnames, _, C', hadv⟩

theorem Orderly.log {s : Step} (h : Orderly w s) (log : List Record) :
    Orderly { w with log } s := by
  cases h with
  | define id name => exact .define id name
  | declare id op => exact .declare id op
  | function id base name response execute hb hs => exact .function id base name response execute hb hs
  | serving id base name response execute hb hs => exact .serving id base name response execute hb hs
  | register kind cls => exact .register kind cls
  | unregister kind => exact .unregister kind
  | toLlm c hd hb => exact .toLlm c hd hb
  | toMcp d c config hb => exact .toMcp d c config hb
  | title c args named hn => exact .title c args named hn
  | param args named hc => exact .param args named hc
  | inputSchema args named hc => exact .inputSchema args named hc
  | askFunction g hc => exact .askFunction g hc
  | askServing g hc => exact .askServing g hc

theorem exec_callClass_none (hc : Table.find? w.classIds c = none) (name : String)
    (args : List Literal) (named : Literal.Rows) :
    ∃ f, (machine.step (.callClass c name args named)).exec w = (.error f, w) := by
  have step : machine.step (.callClass c name args named) = (do
      (Machine.nested 999).callAttribute (World.classValue (← Run.classById c)) name args named) := rfl
  rw [step, Run.exec_bind, exec_classById rfl, hc]
  exact ⟨_, rfl⟩

theorem exec_subclass_none (id : String) {base name : String} {attributes : Literal.Rows}
    {response : Option String} {execute : Option Block} (hb : Table.find? w.classIds base = none) :
    ∃ f, (machine.step (.subclass id (some base) name attributes response execute)).exec w =
      (.error f, w) := by
  have given : Run.classIfGiven (some base) = (do return some (← Run.classById base)) := by
    unfold Run.classIfGiven
    rw [Option.mapM_some, map_eq_pure_bind]
  have step : machine.step (.subclass id (some base) name attributes response execute) = (do
      let b := (← Run.classIfGiven (some base)).getD (.builtIn .object)
      (Machine.nested 999).subclass id b name attributes response execute
      return .null) := rfl
  rw [step, given, bind_assoc, Run.exec_bind, exec_classById rfl, hb]
  exact ⟨_, rfl⟩

/-! ## Adaptations without a host -/

theorem exec_requireHost_none {kind label module : String} (h : w.resolveHost kind = none) :
    (Machine.requireHost kind .null label module).exec w =
      (.error (.hostMissing kind label module), w) := by
  unfold Machine.requireHost
  rw [Run.exec_bind, Run.exec_world]
  dsimp only
  rw [h]
  rfl

theorem bases_cases (w : World) (kind : String) (base : Option String) :
    (∃ b, Bases w kind base b) ∨ (base = none ∧ w.resolveHost kind = none) ∨
      w.baseGiven? base = none := by
  cases base with
  | none =>
    cases hb : w.resolveHost kind with
    | none => exact .inr (.inl ⟨rfl, rfl⟩)
    | some b => exact .inl ⟨b, hb⟩
  | some id =>
    cases hb : Table.find? w.classIds id with
    | none => exact .inr (.inr (by simp [World.baseGiven?, hb]))
    | some b => exact .inl ⟨b, hb⟩

variable {d : String} {base : Option String} {p : Draft} {D : Definition Stored}

theorem Bases.entered {kind : String} {b : ClassRef} (h : w.Follows l C) (hb : Bases w kind base b) :
    ∃ n a, b = .made n ∧ l (.cls n) = some a := by
  cases base with
  | none => exact h.hosts kind b hb
  | some id => exact h.classes id b hb

/-- A result says of a host that it is missing exactly where nothing is given as a base and no class
stands for the host. -/
def Gated {α : Type} (w : World) (kind label module : String) (base : Option String)
    (x : Except Fault α) : Prop :=
  ∀ kind' label' module', x = .error (.hostMissing kind' label' module') ↔
    base = none ∧ w.resolveHost kind = none ∧ kind' = kind ∧ label' = label ∧ module' = module

theorem Gated.of_hosted {kind label module : String} (hx : Hosted x)
    (hb : base = none → w.resolveHost kind ≠ none) : Gated w kind label module base x :=
  fun kind' label' module' =>
    ⟨fun h => absurd h (hx kind' label' module'), fun h => absurd h.2.1 (hb h.1)⟩

theorem Gated.missing {kind label module : String} (h : w.resolveHost kind = none) :
    Gated (α := Value) w kind label module none (.error (.hostMissing kind label module)) := by
  refine fun kind' label' module' => ⟨?_, ?_⟩
  · rintro ⟨⟩
    exact ⟨rfl, h, rfl, rfl, rfl⟩
  · rintro ⟨-, -, rfl, rfl, rfl⟩
    rfl

theorem Bases.gated {kind label module : String} {b : ClassRef} (h : Bases w kind base b)
    (hx : Hosted x) : Gated w kind label module base x := by
  refine .of_hosted hx ?_
  rintro rfl hnone
  cases hnone.symm.trans h

theorem baseGiven?_ne_none {kind : String} (h : w.baseGiven? base = none) :
    base = none → w.resolveHost kind ≠ none := by
  rintro rfl
  cases h

theorem exec_toLlm_none (hd : Holds w d p D C) (hb : ∀ b, ¬ Bases w llmHost base b)
    (hr : (machine.step (.toLlm (some d) c base)).exec w = (x, v)) : v = w ∧
      Gated w llmHost "LLM tool host" "tool_forge.hosts.llm" base x := by
  rcases stepLlm_cases hd hr with ⟨hv, hnone, -, hosted⟩ | ⟨given, y, u, hgiven, hy, hrest⟩
  · exact ⟨hv, .of_hosted hosted (baseGiven?_ne_none hnone)⟩
  rcases bases_cases w llmHost base with ⟨b, hbase⟩ | ⟨rfl, hnone⟩ | hnone
  · exact absurd hbase (hb b)
  · cases hgiven
    have failed : ((Machine.nested 998).adaptLlm p.value .null).exec w =
        (.error (.hostMissing llmHost "LLM tool host" "tool_forge.hosts.llm"), w) := by
      unfold Machine.adaptLlm
      rw [Run.exec_bind, exec_requireHost_none hnone]
    cases failed.symm.trans hy
    obtain ⟨hv, f, rfl, ⟨⟨⟩⟩ | ⟨-, _, ⟨⟩⟩⟩ | ⟨_, _, ⟨⟩, _⟩ := hrest
    exact ⟨hv, .missing hnone⟩
  · cases hnone.symm.trans hgiven

theorem exec_toMcp_none {config : Option ConfigDraft} (hd : Holds w d p D C)
    (hb : ∀ b, ¬ Bases w mcpHost base b)
    (hr : (machine.step (.toMcp (some d) c base config)).exec w = (x, v)) :
    w.Later v (fun _ => False) ∧ (∃ C', v.HoldsData C' ∧ (∀ k, C k → C' k) ∧
      ∀ k, C' k → C k ∨ w.cells.length ≤ k) ∧
      ((∃ settings u, Configures w config settings u) →
        Gated w mcpHost "MCP tool host" "tool_forge.hosts.mcp" base x) := by
  rcases stepMcp_cases hd hr with
    ⟨hg, -, hosted, hno⟩ | ⟨given, settings, u₁, y, u, hgiven, hc, hy, hrest⟩
  · refine ⟨hg.later, ⟨_, hg.data, (hg.below hd.data).cell, fun _ => And.left⟩, ?_⟩
    rintro ⟨settings, u, hc⟩
    refine .of_hosted hosted (baseGiven?_ne_none ?_)
    by_contra hgiven
    exact hno hgiven settings u hc
  rcases bases_cases w mcpHost base with ⟨b, hbase⟩ | ⟨rfl, hnone⟩ | hnone
  · exact absurd hbase (hb b)
  · cases hgiven
    obtain ⟨hl, -⟩ := hc.indents hd.data hd.bundled
    have failed : ((Machine.nested 998).adaptMcp p.value .null settings).exec u₁ =
        (.error (.hostMissing mcpHost "MCP tool host" "tool_forge.hosts.mcp"), u₁) := by
      unfold Machine.adaptMcp
      rw [Run.exec_bind, exec_requireHost_none ((hl.resolveHost _).trans hnone)]
    cases failed.symm.trans hy
    obtain ⟨rfl, f, rfl, ⟨⟨⟩⟩ | ⟨-, _, ⟨⟩⟩⟩ | ⟨_, _, ⟨⟩, _⟩ := hrest
    exact ⟨hl, ⟨C, (hl.retains hd.data fun _ _ => not_false).holdsData hd.data, fun _ => id,
      fun _ => .inl⟩, fun _ => .missing hnone⟩
  · cases hnone.symm.trans hgiven

theorem exec_adapt_none (h : Table.find? w.definitionIds d = none) (c : String)
    (base : Option String) (config : Option ConfigDraft) :
    (machine.step (.toLlm (some d) c base)).exec w = (.error (.unknownId d), w) ∧
      (machine.step (.toMcp (some d) c base config)).exec w = (.error (.unknownId d), w) := by
  have llm : machine.step (.toLlm (some d) c base) = (do
      let d ← Run.definitionById (some d)
      let cls ← (Machine.nested 999).send d "to_llm_tool" [] (← Run.baseIfGiven base)
      let b ← Machine.asClass cls
      Run.bindClass c b
      return classReport (← Run.world) b []) := rfl
  have mcp : machine.step (.toMcp (some d) c base config) = (do
      let d ← Run.definitionById (some d)
      let base ← Run.baseIfGiven base
      let config ← config.mapM fun draft => do return ("config", ← Machine.settings draft)
      let cls ← (Machine.nested 999).send d "to_mcp_tool" [] (base ++ config.toList)
      let b ← Machine.asClass cls
      Run.bindClass c b
      let w ← Run.world
      return classReport w b [("helper_class", helperClassName w b)]) := rfl
  rw [llm, mcp, Run.exec_bind, Run.exec_bind, exec_definitionById_none h]
  exact ⟨rfl, rfl⟩

/-! ## Steps and runs -/

/-- Whatever step of these a session takes, it keeps account. Which class stands for a host changes only
where it is said. -/
theorem advances_step {s : Step} (h : w.Follows l C) (hs : Orderly w s)
    (hr : (machine.step s).exec w = (x, v)) :
    ∃ l' C' R, w.Advances l C v l' C' R ∧ ∀ kind, R (.host kind) → Registers kind s := by
  have unchanged (hv : v = w) :
      ∃ l' C' R, w.Advances l C v l' C' R ∧ ∀ kind, R (.host kind) → Registers kind s :=
    ⟨l, C, fun _ => False, hv ▸ .refl h _, nofun⟩
  have named {c : String} {b : ClassRef} (hc : Table.find? w.classIds c = some b) :
      ∃ n a, b = .made n ∧ l (.cls n) = some a := h.classes c b hc
  have declared {c : String} (hs : DeclaresOn w c s) :
      ∃ l' C' R, w.Advances l C v l' C' R ∧ ∀ kind, R (.host kind) → Registers kind s := by
    cases hfound : Table.find? w.classIds c with
    | none =>
      obtain ⟨name, args, named, rfl⟩ := hs.callClass
      obtain ⟨f, hf⟩ := exec_callClass_none hfound name args named
      cases hf.symm.trans hr
      exact unchanged rfl
    | some b =>
      obtain ⟨n, a, rfl, -⟩ := named hfound
      obtain ⟨-, l', C', ha⟩ := advances_declaration h hfound hs hr
      exact ⟨l', C', _, ha, nofun⟩
  cases hs with
  | define id name =>
    obtain ⟨l', C', ha⟩ := advances_define h hr
    exact ⟨l', C', _, ha, nofun⟩
  | declare id op =>
    obtain ⟨l', C', ha⟩ := advances_builder h op hr
    exact ⟨l', C', _, ha, nofun⟩
  | function id base name response execute hb hs =>
    cases hfound : Table.find? w.classIds base with
    | none =>
      obtain ⟨f, hf⟩ := exec_subclass_none id hfound
      cases hf.symm.trans hr
      exact unchanged rfl
    | some b =>
      obtain ⟨m, a, rfl, hm⟩ := named hfound
      obtain ⟨card, s, rfl, -⟩ := h.function_of_line hm (hb _ hfound)
      obtain ⟨-, C', ha⟩ | ⟨n, a, C', -, -, -, ha, -⟩ := advances_subclass_function h hfound hm hs hr
      · exact ⟨l, C', _, ha, nofun⟩
      · exact ⟨_, C', _, ha, nofun⟩
  | serving id base name response execute hb hs =>
    cases hfound : Table.find? w.classIds base with
    | none =>
      obtain ⟨f, hf⟩ := exec_subclass_none id hfound
      cases hf.symm.trans hr
      exact unchanged rfl
    | some b =>
      obtain ⟨m, a, rfl, hm⟩ := named hfound
      obtain ⟨card, cell, rfl, -⟩ := h.serving_of_line hm (hb _ hfound)
      obtain ⟨-, C', ha⟩ | ⟨n, a, C', -, -, -, ha, -⟩ := advances_subclass_serving h hfound hm hs hr
      · exact ⟨l, C', _, ha, nofun⟩
      · exact ⟨_, C', _, ha, nofun⟩
  | register kind cls =>
    obtain ⟨C', ha⟩ := advances_register h hr
    exact ⟨l, C', _, ha, fun _ hk => (Owner.host.inj hk).symm⟩
  | unregister kind => exact ⟨l, C, _, advances_unregister h hr, fun _ hk => (Owner.host.inj hk).symm⟩
  | @toLlm d c base hd hb =>
    cases hfound : Table.find? w.definitionIds d with
    | none =>
      cases (exec_adapt_none hfound c base none).1.symm.trans hr
      exact unchanged rfl
    | some x =>
    obtain ⟨a, ha⟩ := h.definitions d x hfound
    cases h.enters _ _ ha with
    | definition holds =>
    by_cases hbase : ∃ b, Bases w llmHost base b
    · obtain ⟨b, hbase⟩ := hbase
      obtain ⟨m, a, rfl, hm⟩ := hbase.entered h
      obtain ⟨card, s, rfl, -⟩ := h.function_of_line hm (hb _ hbase)
      obtain ⟨-, C', hadv⟩ | ⟨n, a, C', -, -, -, -, -, -, -, hadv, -⟩ :=
        advances_toLlm h ha (holds.helper?_none (hd _ holds.named)) hbase hm hr
      · exact ⟨l, C', _, hadv, nofun⟩
      · exact ⟨_, C', _, hadv, nofun⟩
    · exact unchanged (exec_toLlm_none holds (fun b hb => hbase ⟨b, hb⟩) hr).1
  | @toMcp d c base config hb =>
    cases hfound : Table.find? w.definitionIds d with
    | none =>
      cases (exec_adapt_none hfound c base config).2.symm.trans hr
      exact unchanged rfl
    | some x =>
    obtain ⟨a, ha⟩ := h.definitions d x hfound
    cases h.enters _ _ ha with
    | definition holds =>
    by_cases hbase : ∃ b, Bases w mcpHost base b
    · obtain ⟨b, hbase⟩ := hbase
      obtain ⟨m, a, rfl, hm⟩ := hbase.entered h
      obtain ⟨card, cell, rfl, -⟩ := h.serving_of_line hm (hb _ hbase)
      obtain ⟨-, C', hadv⟩ | ⟨n, a, C', -, -, -, -, -, -, hadv, -⟩ := advances_toMcp h ha hbase hm hr
      · exact ⟨l, C', _, hadv, nofun⟩
      · exact ⟨_, C', _, hadv, nofun⟩
    · obtain ⟨hl, ⟨C', hd, hC, hf⟩, -⟩ := exec_toMcp_none holds (fun b hb => hbase ⟨b, hb⟩) hr
      exact ⟨l, C', _, h.advances_later hl hd hC hf, nofun⟩
  | title c args named' hn => exact declared (.title args named' hn)
  | param args named' hc => exact declared (.param args named' hc)
  | inputSchema args named' hc => exact declared (.inputSchema args named' hc)
  | @askFunction c g hc =>
    cases hfound : Table.find? w.classIds c with
    | none =>
      obtain ⟨f, hf⟩ := exec_callClass_none hfound g.attribute [] []
      cases hf.symm.trans hr
      exact unchanged rfl
    | some b =>
      obtain ⟨n, a, rfl, -⟩ := named hfound
      obtain ⟨C', hadv⟩ := advances_functionGetter h hfound (hc _ hfound) g hr
      exact ⟨l, C', _, hadv, nofun⟩
  | @askServing c g hc =>
    cases hfound : Table.find? w.classIds c with
    | none =>
      obtain ⟨f, hf⟩ := exec_callClass_none hfound g.attribute [] []
      cases hf.symm.trans hr
      exact unchanged rfl
    | some b =>
      obtain ⟨n, a, rfl, -⟩ := named hfound
      obtain ⟨C', hadv⟩ := advances_servingGetter h hfound (hc _ hfound) g hr
      exact ⟨l, C', _, hadv, nofun⟩

/-- A world that a session comes to which starts afresh and takes such steps. -/
inductive Reached : World → Prop
  | start (logFrom : Int) : Reached { start with logFrom }
  | step {w : World} {s : Step} (h : Reached w) (hs : Orderly w s) : Reached (perform w s).2

def startLedger : Ledger
  | .cls 0 => some (.function ⟨.null, .null, []⟩ ⟨0, []⟩)
  | .cls 1 => some (.serving ⟨.null, .null, none⟩ none)
  | _ => none

theorem follows_start (logFrom : Int) :
    World.Follows { start with logFrom } startLedger fun _ => False := by
  let w : World := { start with logFrom }
  have bundled : w.Bundled := ⟨bundled_start.classes, bundled_start.places⟩
  have fields : ∀ name ∈ ["_name", "_description"], name ∈ start.attributeNames (.made 0) := by
    decide
  have lines : (functionClassRef ∈ start.lineage (.made 0) ∧ servingClassRef ∉ start.lineage (.made 0)) ∧
      servingClassRef ∈ start.lineage (.made 1) ∧ functionClassRef ∉ start.lineage (.made 1) := by
    decide
  have function : w.FunctionClass 0 ⟨.null, .null, []⟩ ⟨0, []⟩ fun _ => False := {
    tellsName := ⟨0, .functionName, by decide, rfl⟩
    tellsDescription := ⟨0, rfl⟩
    ownName := .inl rfl
    ownDescription := .inl rfl
    data := ⟨trivial, trivial⟩
    methods := ⟨functionBase_start.rooted, functionBase_start.finds⟩
    parameters := ⟨0, rfl⟩
    shelf := ⟨rfl, .nil, List.nodup_nil, List.not_mem_nil, fun _ _ => id, fun _ hp => nomatch hp⟩
    told := ⟨0, rfl⟩
    fields := fields
    opens := rfl
    line := lines.1 }
  have serving : w.ServingClass 1 ⟨.null, .null, none⟩ none fun _ => False := {
    tellsName := ⟨1, .servedName, by decide, rfl⟩
    tellsDescription := ⟨1, rfl⟩
    ownName := .inl rfl
    ownDescription := .inl rfl
    data := ⟨trivial, trivial⟩
    methods := ⟨servingBase_start.rooted, servingBase_start.finds⟩
    schema := .null
    untold := servingBase_start.untold
    fields := by
      show ∀ name ∈ _, name ∈ start.attributeNames (.made 1)
      decide
    opens := rfl
    line := lines.2
    schemaCell := fun k ⟨o, ho, _⟩ => by cases ho
    cell_lt := fun k hk => by cases hk }
  have entries : ∀ r a, startLedger r = some a →
      (r = .cls 0 ∧ a = .function ⟨.null, .null, []⟩ ⟨0, []⟩) ∨
        (r = .cls 1 ∧ a = .serving ⟨.null, .null, none⟩ none) := by
    intro r a ha
    unfold startLedger at ha
    split at ha
    · cases ha
      exact .inl ⟨rfl, rfl⟩
    · cases ha
      exact .inr ⟨rfl, rfl⟩
    · cases ha
  have standing {id : String} {c : ClassRef} (hc : Table.find? start.classIds id = some c) :
      ∃ n a, c = .made n ∧ startLedger (.cls n) = some a := by
    have hrows : ∀ row ∈ start.classIds, row.2 = functionClassRef ∨ row.2 = servingClassRef := by
      decide
    rcases hrows _ (Table.mem_of_find? hc) with rfl | rfl
    · exact ⟨0, _, rfl, rfl⟩
    · exact ⟨1, _, rfl, rfl⟩
  exact {
    bundled := bundled
    extras := rfl
    data := fun _ => False.elim
    hosts := fun kind c hc => by
      have hc : (Table.find? start.hosts kind).join = some c := hc
      rw [Option.join_eq_some_iff] at hc
      have hrow := Table.mem_of_find? hc
      simp only [start, List.mem_cons, Prod.mk.injEq, Option.some.injEq, List.not_mem_nil,
        or_false] at hrow
      rcases hrow with ⟨-, rfl⟩ | ⟨-, rfl⟩
      · exact ⟨0, _, rfl, rfl⟩
      · exact ⟨1, _, rfl, rfl⟩
    enters := fun r a ha => by
      rcases entries r a ha with ⟨rfl, rfl⟩ | ⟨rfl, rfl⟩
      · exact .function function
      · exact .serving serving
    apart := fun r r' a b hne ha hb k hk hc => by
      rcases entries r a ha with ⟨rfl, rfl⟩ | ⟨rfl, rfl⟩ <;>
        rcases entries r' b hb with ⟨rfl, rfl⟩ | ⟨rfl, rfl⟩
      · exact hne rfl
      · cases hc
      · exact hk.elim
      · exact hne rfl
    classes := fun id c hc => standing hc
    definitions := fun id x hx => by cases hx
    function := ⟨_, rfl⟩
    serving := ⟨_, rfl⟩ }

theorem Follows.perform {s : Step} (h : w.Follows l C) (hs : Orderly w s) :
    ∃ l' C' R, w.Advances l C (perform w s).2 l' C' R ∧ ∀ kind, R (.host kind) → Registers kind s := by
  have logged := h.advances_log []
  rw [perform_eq]
  obtain ⟨l', C', R, ha, hk⟩ := advances_step logged.follows (hs.log []) rfl
  exact ⟨l', C', R, (logged.mono fun _ => False.elim).trans ha, hk⟩

theorem Reached.follows (h : Reached w) : ∃ l C, w.Follows l C := by
  induction h with
  | start logFrom => exact ⟨_, _, follows_start logFrom⟩
  | step _ hs ih =>
    obtain ⟨l, C, hf⟩ := ih
    obtain ⟨l', C', R, ha, -⟩ := Follows.perform hf hs
    exact ⟨l', C', ha.follows⟩

end Session

end Toolwright
