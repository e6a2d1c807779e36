import Toolwright.Proofs.Publication.Agreement

/-!
# Repeated declarations

A definition keeps each parameter that is declared, and warns where the name of one was declared
before. What is published has each name once, at the place of its first declaration. So there are as
many warnings as parameters that are not published for themselves.
-/

namespace Toolwright

set_option autoImplicit false

theorem Table.keys_ofRows {β : Type} (rows : List (String × β)) :
    Table.keys (Table.ofRows rows) = (Table.keys rows).eraseDups := by
  induction rows using List.reverseRecOn with
  | nil => rfl
  | append_singleton rows row ih =>
    have hkeys : Table.keys (rows ++ [row]) = Table.keys rows ++ [row.1] := List.map_append
    have hmem : row.1 ∈ Table.keys (Table.ofRows rows) ↔ row.1 ∈ Table.keys rows :=
      Table.mem_keys_ofRows_iff
    rw [Table.ofRows_append, hkeys, eraseDups_concat]
    show Table.keys (Table.insert row.1 row.2 (Table.ofRows rows)) = _
    rw [Table.keys_insert, ih]
    simp only [ih] at hmem
    by_cases h : row.1 ∈ Table.keys rows
    · rw [if_pos h, if_pos (hmem.mpr h)]
    · rw [if_neg h, if_neg fun hm => h (hmem.mp hm)]

/-! ## Calls -/

/-- A declaration that takes nothing away, and that gives a parameter a text as its name. -/
def Builder.Named : Builder → Prop
  | .param draft => ∃ name, draft.name = .str name
  | .dropParam => False
  | _ => True

def repeatedRecord (tool name : String) : Record :=
  ⟨Machine.definitionLogger, 30,
    "Tool " ++ tool ++ ": parameter " ++ name ++ " declared more than once"⟩

namespace Session

def written (w : World) (op : Builder) : Option Named :=
  op.draft?.bind fun draft => ((Machine.draftFields draft).exec { w with log := [] }).1.toOption

def ifReturned (result : Except Fault Value) (given : Option Named) : Option Named :=
  if result.isOk then given else none

/-- The fields with which a step declares a parameter of a definition, if the declaration returns. -/
def declared (id : String) (w : World) (op : Builder) : Option Named :=
  ifReturned ((machine.step (op.step id)).exec { w with log := [] }).1 (written w op)

/-- What steps give one after another, each in the world that the steps before it have left. -/
def gather (given : World → Builder → Option Named) (id : String) :
    World → List Builder → List Named
  | _, [] => []
  | w, op :: ops => (given w op).toList ++ gather given id (perform w (op.step id)).2 ops

def warned (replies : List Reply) : List Record := replies.flatMap fun reply => warnings reply.log

end Session

/-! ## One declaration -/

section Declaring

variable {w v : World} {D D' : Definition Stored} {C : Nat → Prop} {op : Builder}

theorem Definition.Next.kept (h : D.Next op D') (ho : op.draft? = none) (hn : op.Named) :
    D'.params = D.params ∧ D'.name = D.name := by
  cases h with
  | describe text x => cases x <;> exact ⟨rfl, rfl⟩
  | declare draft spec => cases ho
  | store s => exact ⟨rfl, rfl⟩
  | help scope name s => cases scope <;> exact ⟨rfl, rfl⟩
  | drop => exact hn.elim

theorem name_of_build {draft : ParamDraft} {name : String} (hn : draft.name = .str name)
    {p : ParamSpec} (h : (Run.build draft.build).exec w = (.ok p, v)) : p.name = .str name := by
  unfold Run.build at h
  obtain ⟨u, _, hu, h⟩ := Run.of_exec_bind h
  obtain ⟨⟨q, marks⟩, t, hq, h⟩ := Run.of_exec_bind h
  cases h
  rw [Run.exec_lift] at hq
  have hq := congrArg Prod.fst hq
  dsimp only at hq
  unfold ParamDraft.build at hq
  rw [hn] at hq
  obtain ⟨_, _, hq⟩ := of_bind_ok hq
  obtain ⟨_, _, hq⟩ := of_bind_ok hq
  obtain ⟨_, _, hq⟩ := of_bind_ok hq
  obtain ⟨_, _, hq⟩ := of_bind_ok hq
  cases hq
  rfl

theorem name_of_draftFields {draft : ParamDraft} {name : String} (hn : draft.name = .str name)
    {spec : ParamSpec} (h : (Machine.draftFields draft).exec w = (.ok spec.fields, v)) :
    spec.name = .str name := by
  obtain ⟨p, u, hbuild, h⟩ := Run.of_exec_bind h
  have hp := name_of_build hn hbuild
  have hshare : Run.share (.str name) = pure (.str name) := rfl
  dsimp only at h
  rw [List.mapM_cons, hp, hshare] at h
  simp only [pure_bind] at h
  obtain ⟨rest, u, hrest, h⟩ := Run.of_exec_bind h
  have hrow := congrArg (fun x : Except Fault Named × World => x.1) h
  injection hrow with hrow
  injection hrow with hrow _
  injection hrow with _ hname
  exact hname.symm

theorem sameValues_str (w : World) (a b : String) :
    w.sameValues (.str a) (.str b) = (a == b) := by
  unfold World.sameValues
  rw [World.exposed_str, World.exposed_str]
  show Value.same (.str a) (.str b) = _
  rw [Value.same]

/-- What is noted before a parameter is declared of which the name is a text: a warning just if it is
among the names so far. It can be worded if the name of the tool can be printed. -/
theorem noticed_str {names : List String} (hnames : D.params.map (·.name) = names.map .str)
    (hlog : w.logFrom ≤ 30) (name : String) :
    name ∉ names ∧ w.noticed D (.str name) = .ok [] ∨
      name ∈ names ∧ ((∃ f g, w.noticed D (.str name) = .error f ∧ w.printedOf D.name = .error g) ∨
        ∃ tool text, w.noticed D (.str name) = .ok [repeatedRecord tool text]) := by
  have hany : (D.params.any fun spec => w.sameValues spec.name (.str name)) = true ↔
      name ∈ names := by
    have hmap : (D.params.any fun spec => w.sameValues spec.name (.str name)) =
        (D.params.map (·.name)).any (w.sameValues · (.str name)) := by
      rw [List.any_map]
      rfl
    rw [hmap, hnames, List.any_map, List.any_eq_true]
    simp only [Function.comp, sameValues_str, beq_iff_eq, exists_eq_right]
  by_cases hm : name ∈ names
  · refine .inr ⟨hm, ?_⟩
    unfold World.noticed World.repetition
    rw [if_pos ⟨hany.mpr hm, hlog⟩]
    cases w.printedOf D.name with
    | error f => exact .inl ⟨f, f, rfl, rfl⟩
    | ok tool => exact .inr ⟨tool, _, rfl⟩
  · refine .inl ⟨hm, ?_⟩
    unfold World.noticed
    rw [if_neg fun hc => hm (hany.mp hc.1)]

end Declaring

/-- What declarations make of a definition of which the parameters have texts as names: the fields
given are those of its further parameters, and each warning is for a parameter with a name that was
there. -/
structure Accounted (D : Definition Stored) (names : List String) (given : List Named)
    (log : List Record) (D' : Definition Stored) (names' : List String) : Prop where
  name : D'.name = D.name
  params : ∃ specs, D'.params = D.params ++ specs ∧ specs.map ParamSpec.fields = given
  texts : D'.params.map (·.name) = names'.map .str
  records : ∀ record ∈ log, ∃ tool name, record = repeatedRecord tool name
  count : log.length + names'.eraseDups.length + names.length =
    names'.length + names.eraseDups.length

namespace Accounted

variable {D D' D'' : Definition Stored} {names names' names'' : List String}
  {given given' : List Named} {log log' : List Record}

theorem unchanged (hparams : D'.params = D.params) (hname : D'.name = D.name)
    (hnames : D.params.map (·.name) = names.map .str) : Accounted D names [] [] D' names where
  name := hname
  params := ⟨[], by rw [hparams, List.append_nil], rfl⟩
  texts := hparams ▸ hnames
  records := nofun
  count := by rw [List.length_nil]; omega

theorem declare (hnames : D.params.map (·.name) = names.map .str) {spec : ParamSpec}
    {name : String} (hname : spec.name = .str name)
    (hlog : ∀ record ∈ log, ∃ tool name, record = repeatedRecord tool name)
    (hcount : log.length = if name ∈ names then 1 else 0) :
    Accounted D names [spec.fields] log (D.declare spec) (names ++ [name]) where
  name := rfl
  params := ⟨[spec], rfl, rfl⟩
  texts := by
    show (D.params ++ [spec]).map (·.name) = _
    rw [List.map_append, List.map_append, hnames, List.map_singleton, hname]
    rfl
  records := hlog
  count := by
    rw [hcount, eraseDups_concat]
    split <;> simp only [List.length_append, List.length_singleton] <;> omega

theorem trans (h : Accounted D names given log D' names')
    (h' : Accounted D' names' given' log' D'' names'') :
    Accounted D names (given ++ given') (log ++ log') D'' names'' where
  name := h'.name.trans h.name
  params := by
    obtain ⟨specs, hspecs, hgiven⟩ := h.params
    obtain ⟨specs', hspecs', hgiven'⟩ := h'.params
    exact ⟨specs ++ specs', by rw [hspecs', hspecs, List.append_assoc],
      by rw [List.map_append, hgiven, hgiven']⟩
  texts := h'.texts
  records record hm := (List.mem_append.mp hm).elim (h.records record) (h'.records record)
  count := by
    have hc := h.count
    have hc' := h'.count
    rw [List.length_append]
    omega

end Accounted

namespace Session

open Machine

variable {w : World} {id : String} {p : Draft} {D : Definition Stored} {C : Nat → Prop}
  {op : Builder} {names : List String}

theorem exec_declareNamed (k : Nat) (h : w.Declares p D C) (hlog : w.logFrom ≤ 30)
    (hnames : D.params.map (·.name) = names.map .str) {spec : ParamSpec} {name : String}
    (hspec : spec.name = .str name) (hx : ∀ x ∈ spec.values, x.Within (w.data C) ∧ x.IsShared) :
    (∃ f g, ((nested (k + 3)).send p.value "param" [] spec.fields).exec w = (.error f, w) ∧
      w.printedOf D.name = .error g) ∨
    ∃ a v p' log, ((nested (k + 3)).send p.value "param" [] spec.fields).exec w = (.ok a, v) ∧
      w.Further v p p' (D.declare spec) C C ∧ v.log = w.log ++ log ∧
      Accounted D names [spec.fields] (warnings log) (D.declare spec) (names ++ [name]) := by
  have hnoticed := noticed_str hnames hlog name
  rw [← hspec] at hnoticed
  rcases exec_declareSpec k h hx with ⟨f, hn, hrun⟩ | ⟨log, a, v, p', hn, hrun, hf, hl⟩
  · rcases hnoticed with ⟨-, he⟩ | ⟨-, ⟨_, g, -, hg⟩ | ⟨tool, text, he⟩⟩
    · cases hn.symm.trans he
    · exact .inl ⟨f, g, hrun, hg⟩
    · cases hn.symm.trans he
  · refine .inr ⟨a, v, p', log, hrun, hf, hl, ?_⟩
    rcases hnoticed with ⟨hm, he⟩ | ⟨hm, ⟨_, g, he, -⟩ | ⟨tool, text, he⟩⟩
    · cases hn.symm.trans he
      exact .declare hnames hspec nofun (if_neg hm).symm
    · cases hn.symm.trans he
    · cases hn.symm.trans he
      refine .declare hnames hspec (fun record hr => ?_) (if_pos hm).symm
      exact ⟨tool, text, List.mem_singleton.mp hr⟩

/-- What a step of a builder leaves of a definition, with the fields given for a parameter if the step
returns. It returns if the name of the tool can be printed. -/
def Accounts (w : World) (id : String) (p : Draft) (D : Definition Stored) (C : Nat → Prop)
    (names : List String) (given : Option Named) (x : Except Fault Value × World) : Prop :=
  ∃ p' D' C' names', Holds x.2 id p' D' C' ∧ w.Further x.2 p p' D' C C' ∧
    Accounted D names (ifReturned x.1 given).toList (warnings x.2.log) D' names' ∧
    ((∃ tool, w.printedOf D.name = .ok tool) → ifReturned x.1 given = given)

theorem accounts_other (h : Holds w id p D C) (hw : w.log = []) (hop : op.Named)
    (hdraft : op.draft? = none) (hnames : D.params.map (·.name) = names.map .str) :
    Accounts w id p D C names none
      (((nested 999).definitionStep p.value (op.step id)).exec w) := by
  have hdevelops := exec_declaring 996 h.toDeclares id op
  generalize ((nested 999).definitionStep p.value (op.step id)).exec w = x at hdevelops
  have hnone (r : Except Fault Value) : ifReturned r none = none := ite_self none
  have hsilent {v : World} (hv : warnings v.log = warnings w.log) : warnings v.log = [] := by
    rw [hv, hw]
    rfl
  cases hdevelops with
  | done hn hf hv =>
    obtain ⟨hparams, hname⟩ := hn.kept hdraft hop
    refine ⟨_, _, _, names, h.further hf, hf, ?_, fun _ => hnone _⟩
    rw [hnone, hsilent (hv hdraft)]
    exact .unchanged hparams hname hnames
  | failed hr hf hv =>
    refine ⟨_, _, _, names, h.further hf, hf, ?_, fun _ => hnone _⟩
    rw [hnone, hsilent (hv hdraft)]
    exact .unchanged rfl rfl hnames

theorem accounts_param (h : Holds w id p D C) (hw : w.log = []) (hlog : w.logFrom ≤ 30)
    {draft : ParamDraft} {name : String} (hname : draft.name = .str name)
    (hnames : D.params.map (·.name) = names.map .str) :
    Accounts w id p D C names ((draftFields draft).exec w).1.toOption
      (((nested 999).definitionStep p.value ((Builder.param draft).step id)).exec w) := by
  have hg := h.data.gains (Q := Link.RenamedNamed) (fun L e => Link.draftFields_agree draft)
  have hsilent : ((draftFields draft).exec w).2.log = [] :=
    (Run.silent_draftFields draft w).trans hw
  have hstep : ((nested 999).definitionStep p.value ((Builder.param draft).step id)).exec w =
      Run.exec (do
        let fields ← draftFields draft
        (nested 999).send p.value "param" [] fields) w := rfl
  rw [Run.exec_bind] at hstep
  cases hr : (draftFields draft).exec w with
  | mk result u =>
    rw [hr] at hg hsilent hstep
    dsimp only at hg hsilent hstep
    have hu := hg.further h.toDeclares
    cases result with
    | error f =>
      rw [hstep]
      refine ⟨_, _, _, names, h.further hu, hu, ?_, fun _ => rfl⟩
      show Accounted D names [] (warnings u.log) D names
      rw [hsilent]
      exact .unchanged rfl rfl hnames
    | ok fields =>
      obtain ⟨spec, rfl, hx⟩ := h.data.draftFields hr
      have hspec : spec.name = .str name := name_of_draftFields hname hr
      have hlevel : u.logFrom ≤ 30 := hg.later.logFrom ▸ hlog
      rcases exec_declareNamed 996 hu.declares hlevel hnames hspec hx with
        ⟨f, g, hsent, hprinted⟩ | ⟨a, v, p', log, hsent, hf, hl, haccounted⟩
      · rw [hstep.trans hsent]
        refine ⟨_, _, _, names, h.further hu, hu, ?_, ?_⟩
        · show Accounted D names [] (warnings u.log) D names
          rw [hsilent]
          exact .unchanged rfl rfl hnames
        · rintro ⟨tool, htool⟩
          have hsame : u.printedOf D.name = w.printedOf D.name :=
            (hg.retains h.data).printedOf h.data (h.values _ List.mem_cons_self).1
          rw [hsame, htool] at hprinted
          cases hprinted
      · rw [hstep.trans hsent]
        refine ⟨_, _, _, names ++ [name], h.further (hu.trans hf), hu.trans hf, ?_, fun _ => rfl⟩
        show Accounted D names [spec.fields] (warnings v.log) _ _
        rw [hl, hsilent]
        exact haccounted

theorem perform_accounted (h : Holds w id p D C) (hlog : w.logFrom ≤ 30)
    (hnames : D.params.map (·.name) = names.map .str) (hop : op.Named) :
    ∃ p' D' C' names', Holds (perform w (op.step id)).2 id p' D' C' ∧
      w.Further (perform w (op.step id)).2 p p' D' C C' ∧
      Accounted D names (declared id w op).toList (warnings (perform w (op.step id)).1.log) D'
        names' ∧
      ((∃ tool, w.printedOf D.name = .ok tool) → declared id w op = written w op) := by
  let w₀ : World := { w with log := [] }
  have h₀ : Holds w₀ id p D C := h.log []
  have hlogged : w.Further w₀ p p D C C := h.unchanged ((World.Later.refl w _).log [])
  have haccounts : Accounts w₀ id p D C names (written w op)
      ((machine.step (op.step id)).exec w₀) := by
    rw [exec_named h₀ (by cases op <;> rfl)]
    cases hdraft : op.draft? with
    | none =>
      rw [show written w op = none by rw [written, hdraft]; rfl]
      exact accounts_other h₀ rfl hop hdraft hnames
    | some draft =>
      obtain rfl : op = .param draft := by cases op <;> cases hdraft; rfl
      obtain ⟨name, hname⟩ := hop
      exact accounts_param h₀ rfl hlog hname hnames
  obtain ⟨p', D', C', names', hh, hf, haccounted, hsame⟩ := haccounts
  refine ⟨p', D', C', names', hh, hlogged.trans hf, haccounted, fun ⟨tool, htool⟩ => hsame ⟨tool, ?_⟩⟩
  rw [← htool]
  exact (hlogged.later.retains h.data fun n hn => h.not_changes n hn).printedOf h.data
    (h.values _ List.mem_cons_self).1

theorem performAll_accounted (h : Holds w id p D C) (hlog : w.logFrom ≤ 30)
    (hnames : D.params.map (·.name) = names.map .str) {ops : List Builder}
    (hops : ∀ op ∈ ops, op.Named) :
    ∃ p' D' C' names', Holds (performAll w (ops.map (Builder.step id))).2 id p' D' C' ∧
      w.Further (performAll w (ops.map (Builder.step id))).2 p p' D' C C' ∧
      Accounted D names (gather (declared id) id w ops)
        (warned (performAll w (ops.map (Builder.step id))).1) D' names' ∧
      ((∃ tool, w.printedOf D.name = .ok tool) →
        gather (declared id) id w ops = gather written id w ops) := by
  induction ops generalizing w p D C names with
  | nil =>
    exact ⟨p, D, C, names, h, h.unchanged (World.Later.refl w _), .unchanged rfl rfl hnames,
      fun _ => rfl⟩
  | cons op ops ih =>
    obtain ⟨p₁, D₁, C₁, names₁, h₁, hf₁, hstep, hsame₁⟩ :=
      perform_accounted h hlog hnames (hops op List.mem_cons_self)
    obtain ⟨p₂, D₂, C₂, names₂, h₂, hf₂, hrest, hsame₂⟩ := ih h₁ (hf₁.later.logFrom ▸ hlog)
      hstep.texts fun op' hm => hops op' (List.mem_cons_of_mem op hm)
    refine ⟨p₂, D₂, C₂, names₂, h₂, hf₁.trans hf₂, hstep.trans hrest, fun ⟨tool, htool⟩ => ?_⟩
    have hprinted : (perform w (op.step id)).2.printedOf D₁.name = .ok tool := by
      rw [hstep.name, ← htool]
      exact (hf₁.later.retains h.data fun n hn => h.not_changes n hn).printedOf h.data
        (h.values _ List.mem_cons_self).1
    show (declared id w op).toList ++ _ = (written w op).toList ++ _
    rw [hsame₁ ⟨tool, htool⟩, hsame₂ ⟨tool, hprinted⟩]

end Session

/-! ## What is published -/

section Published

variable {w : World} {specs : List ParamSpec} {names : List String}

theorem textsOf_names (w : World) (h : specs.map (·.name) = names.map .str) :
    w.textsOf specs = .ok names := by
  induction specs generalizing names with
  | nil =>
    rw [List.map_nil, eq_comm, List.map_eq_nil_iff] at h
    rw [h]
    rfl
  | cons spec specs ih =>
    cases names with
    | nil => cases h
    | cons name names =>
      rw [List.map_cons, List.map_cons, List.cons.injEq] at h
      rw [World.textsOf_cons, h.1, ih h.2]
      rfl

theorem InputSchema.ofParamsFrom_succeeds {s : InputSchema}
    (h : ∀ p ∈ specs, ∃ row, p.row = .ok row) : ∃ t, ofParamsFrom s specs = .ok t := by
  induction specs generalizing s with
  | nil => exact ⟨s, rfl⟩
  | cons p ps ih =>
    obtain ⟨row, hrow⟩ := h p List.mem_cons_self
    obtain ⟨property, hproperty, hrow⟩ := of_bind_ok hrow
    obtain ⟨name, hname, -⟩ := of_bind_ok hrow
    rw [ofParamsFrom, hproperty]
    show ∃ t, (do
      let name ← p.name.text
      ofParamsFrom
        { properties := Table.insert name property s.properties
          required := if p.required.truthy then s.required ++ [name] else s.required } ps) = .ok t
    rw [hname]
    exact ih fun q hq => h q (List.mem_cons_of_mem p hq)

theorem World.servedSchema_succeeds (hnames : specs.map (·.name) = names.map .str)
    (htypes : ∀ spec ∈ specs, ∃ text, w.textOf spec.type = .ok text) :
    ∃ s, w.servedSchema specs = .ok s := by
  have hserved : ∃ served, specs.mapM w.servedSpec = .ok served ∧
      ∀ p ∈ served, ∃ row, p.row = .ok row := by
    induction specs generalizing names with
    | nil => exact ⟨[], rfl, nofun⟩
    | cons spec specs ih =>
      cases names with
      | nil => cases hnames
      | cons name names =>
        rw [List.map_cons, List.map_cons, List.cons.injEq] at hnames
        obtain ⟨served, hs, hrows⟩ := ih hnames.2 fun q hq => htypes q (List.mem_cons_of_mem spec hq)
        obtain ⟨type, htype⟩ := htypes spec List.mem_cons_self
        have hspec : ∃ p, w.servedSpec spec = .ok p := by
          unfold servedSpec
          rw [htype, hnames.1]
          exact ⟨_, rfl⟩
        obtain ⟨p, hp⟩ := hspec
        obtain ⟨_, _, -, -, hrow, -⟩ := row_servedSpec hp
        refine ⟨p :: served, ?_, fun q hq => ?_⟩
        · rw [List.mapM_cons, hp, hs]
          rfl
        · rcases List.mem_cons.mp hq with rfl | hq
          · exact ⟨_, hrow⟩
          · exact hrows q hq
  obtain ⟨served, hs, hrows⟩ := hserved
  unfold servedSchema
  rw [hs]
  exact InputSchema.ofParamsFrom_succeeds hrows

theorem World.keys_servedSchema {s : InputSchema} (hnames : specs.map (·.name) = names.map .str)
    (h : w.servedSchema specs = .ok s) : Table.keys s.properties = names.eraseDups := by
  obtain ⟨rows, hrows, hproperties, -⟩ := of_servedSchema h
  have htexts := (textsOf_publishedRows hrows).symm.trans (textsOf_names w hnames)
  rw [hproperties, Table.keys_ofRows, Except.ok.inj htexts]

theorem Machine.keys_declaredTable (h : specs.length = names.length) :
    Table.keys (declaredTable (specs.zip names) []) = names.eraseDups := by
  have hrows : declaredTable (specs.zip names) [] =
      Table.ofRows ((specs.zip names).map fun row => (row.2, takenOver row.1 row.2)) := by
    unfold declaredTable Table.ofRows
    rw [List.foldl_map]
  have hkeys : Table.keys ((specs.zip names).map fun row => (row.2, takenOver row.1 row.2)) =
      names := by
    unfold Table.keys
    rw [List.map_map]
    exact List.map_snd_zip (Nat.le_of_eq h.symm)
  rw [hrows, Table.keys_ofRows, hkeys]

end Published

namespace Session

open Machine

variable {w : World} {id : String} {p : Draft} {D : Definition Stored} {C : Nat → Prop}
  {base : Option String} {b : ClassRef} {s : Shelf}

/-- Whatever a builder declares of a new definition, with texts as the names of parameters, the
definition has one parameter for each declaration that returned, with the fields given; and the
warnings are as many as the parameters that share a name with an earlier one, so that the different
names, in the order of their first declarations, are those of the properties that are served and of
the parameters of a class of a function-calling host. -/
theorem warnings_account (h : MeetsFunctionHost w id p D C base b s []) (hnew : D.params = [])
    (hlog : w.logFrom ≤ 30) {ops : List Builder} (hops : ∀ op ∈ ops, op.Named) :
    ∃ v p' D' C', ∃ names : List String,
      (performAll w (ops.map (Builder.step id))).2 = v ∧ Holds v id p' D' C' ∧
      D'.params.map ParamSpec.fields = gather (declared id) id w ops ∧
      ((∃ tool, w.printedOf D.name = .ok tool) →
        gather (declared id) id w ops = gather written id w ops) ∧
      D'.params.map (·.name) = names.map .str ∧
      (∀ record ∈ warned (performAll w (ops.map (Builder.step id))).1,
        ∃ tool name, record = repeatedRecord tool name) ∧
      (warned (performAll w (ops.map (Builder.step id))).1).length + names.eraseDups.length =
        D'.params.length ∧
      ((∀ spec ∈ D'.params, ∃ text, v.textOf spec.type = .ok text) → ∃ schema,
        (machine.servedSchema p'.value).exec v = (.ok schema, v) ∧
        Table.keys schema.properties = names.eraseDups) ∧
      ∀ c answer, (perform v (.toLlm (some id) c base)).1.outcome = .ok answer →
        ∃ n k rows u, Table.find? (perform v (.toLlm (some id) c base)).2.classIds c =
            some (.made n) ∧
          (machine.send (World.classValue (.made n)) "parameters" [] []).exec
            (perform v (.toLlm (some id) c base)).2 = (.ok (cellValue k), u) ∧
          u.cells[k]? = some (.ofRows rows) ∧ Table.keys rows = names.eraseDups := by
  have hnames : D.params.map (·.name) = ([] : List String).map .str := by rw [hnew]; rfl
  obtain ⟨p', D', C', names, hh, hf, haccount, hsame⟩ :=
    performAll_accounted h.toHolds hlog hnames hops
  obtain ⟨specs, hspecs, hgiven⟩ := haccount.params
  rw [hnew, List.nil_append] at hspecs
  have hlength : D'.params.length = names.length := by
    have := congrArg List.length haccount.texts
    rwa [List.length_map, List.length_map] at this
  refine ⟨_, p', D', C', names, rfl, hh, hspecs ▸ hgiven, hsame, haccount.texts, haccount.records,
    ?_, fun htypes => ?_, fun c answer ha => ?_⟩
  · have hcount := haccount.count
    rw [hlength]
    exact hcount
  · obtain ⟨schema, hschema⟩ := World.servedSchema_succeeds haccount.texts htypes
    refine ⟨schema, ?_, World.keys_servedSchema haccount.texts hschema⟩
    rw [exec_servedSchema _ hh.toDeclares, hschema]
  · obtain ⟨u, text, texts, s', hu, -, hb, hc, -, htexts, -, hhost⟩ := (h.further hf).host_toLlm ha
    cases htexts.symm.trans (textsOf_names _ haccount.texts)
    have hkeys := hhost.shelf.keys_eq
    rw [hu]
    refine ⟨_, u.cells.length, objectRows s'.rows, _, hc, exec_sendParameters 998 hb hhost, ?_, ?_⟩
    · exact List.getElem?_concat_length
    · have hrows : Table.keys (objectRows s'.rows) = Table.keys s'.rows := by
        unfold Table.keys objectRows
        rw [List.map_map]
        rfl
      rw [hrows, hkeys]
      exact keys_declaredTable hlength

def repeating : List Builder :=
  [.param { name := .str "x" }, .describe (.str "Repeats"), .param { name := .str "y" },
    .param { name := .str "x", type := .str "integer" }, .param { name := .str "x" }]

set_option maxRecDepth 100000 in
theorem warnings_account_repeating : ∃ w p D C,
    MeetsFunctionHost w "d" p D C none functionClassRef ⟨0, []⟩ [] ∧ D.params = [] ∧
    w.logFrom ≤ 30 ∧ (∀ op ∈ repeating, op.Named) ∧
    (warned (performAll w (repeating.map (Builder.step "d"))).1).length = 2 ∧
    ∃ v p' D' C', ∃ names : List String,
      (performAll w (repeating.map (Builder.step "d"))).2 = v ∧ Holds v "d" p' D' C' ∧
      2 + names.eraseDups.length = D'.params.length ∧
      ((∀ spec ∈ D'.params, ∃ text, v.textOf spec.type = .ok text) → ∃ schema,
        (machine.servedSchema p'.value).exec v = (.ok schema, v) ∧
        Table.keys schema.properties = names.eraseDups) ∧
      ∃ n k rows u, Table.find? (perform v (.toLlm (some "d") "L" none)).2.classIds "L" =
          some (.made n) ∧
        (machine.send (World.classValue (.made n)) "parameters" [] []).exec
          (perform v (.toLlm (some "d") "L" none)).2 = (.ok (cellValue k), u) ∧
        u.cells[k]? = some (.ofRows rows) ∧ Table.keys rows = names.eraseDups := by
  let w := (perform start (.define "d" (.str "tool") none)).2
  have defined : (perform start (.define "d" (.str "tool") none)).1.outcome.isOk = true := by
    decide +kernel
  have twice : (warned (performAll w (repeating.map (Builder.step "d"))).1).length = 2 := by
    decide +kernel
  have adapted : (perform (performAll w (repeating.map (Builder.step "d"))).2
      (.toLlm (some "d") "L" none)).1.outcome.isOk = true := by
    decide +kernel
  obtain ⟨a, log, ha⟩ := exists_perform defined
  obtain ⟨p, x, C, hf, -⟩ := perform_define_meets bundled_start holdsData_start
    functionBase_start reads_start (show Bases start llmHost none functionClassRef from rfl)
    servingBase_start (show Bases start mcpHost none servingClassRef from rfl) "d" (.str "tool")
    (show (perform start (.define "d" (.str "tool") none)).1.outcome = .ok a by rw [ha])
  have hnamed : ∀ op ∈ repeating, op.Named := by
    intro op hm
    simp only [repeating, List.mem_cons, List.not_mem_nil, or_false] at hm
    rcases hm with rfl | rfl | rfl | rfl | rfl
    · exact ⟨_, rfl⟩
    · trivial
    all_goals exact ⟨_, rfl⟩
  have hlog : w.logFrom ≤ 30 := by decide +kernel
  obtain ⟨answer, log', hl⟩ := exists_perform adapted
  obtain ⟨v, p', D', C', names, hv, hh, -, -, -, -, hcount, hserved, htold⟩ :=
    warnings_account hf rfl hlog hnamed
  rw [twice] at hcount
  rw [hv] at hl
  exact ⟨w, p, _, C, hf, rfl, hlog, hnamed, twice, v, p', D', C', names, hv, hh, hcount, hserved,
    htold "L" answer (by rw [hl])⟩

end Session

end Toolwright
