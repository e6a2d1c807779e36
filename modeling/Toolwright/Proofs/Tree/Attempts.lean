import Toolwright.Proofs.Adaptation.OtherBases
import Toolwright.Proofs.Publication.Definitions
import Toolwright.Proofs.Tree.Tables

/-!
# Attempts to adapt

A session may try to adapt its definitions to any of its classes, also to one that lacks what is called
on the class that is made, and while no class stands for the host. Which class stands for a host is
what was said of that host last. An attempt fails for a missing host exactly where nothing is given as a
base and no class stands for the host; whatever comes of it, all that was there answers as before.
-/

namespace Toolwright

set_option autoImplicit false

/-! ## Answers -/

namespace Answer

variable {w : World} {name : Value → Except Fault Answer}

theorem hosted_ofOpaque (hn : ∀ x, Hosted (name x)) (o : Opaque) : Hosted (ofOpaque w name o) := by
  unfold ofOpaque
  split
  case h_4 =>
    dsimp only
    split
    · exact (w.hosted_kept _ _).bind fun _ => (hn _).bind fun _ => .ok _
    · split <;> exact .ok _
  case h_6 => nofun
  all_goals exact .ok _

mutual

theorem hosted_ofParts (hn : ∀ x, Hosted (name x)) (x : Value) : Hosted (ofParts w name x) := by
  cases x with
  | int n =>
    refine Hosted.bind ?_ fun _ => .ok _
    unfold intText
    split
    · exact .ok _
    · nofun
  | list xs | tuple xs | set xs | frozenset xs => exact (hosted_ofItems hn xs).bind fun _ => .ok _
  | dict rows | mapping rows => exact (hosted_ofRows hn rows).bind fun _ => .ok _
  | opaqueRef o => exact hosted_ofOpaque hn o
  | record shape fields =>
    refine (hosted_ofItems hn fields).bind fun _ => ?_
    cases shape <;> exact .ok _
  | _ => exact .ok _

theorem hosted_ofItems (hn : ∀ x, Hosted (name x)) (xs : List Value) : Hosted (ofItems w name xs) := by
  cases xs with
  | nil => exact .ok []
  | cons x xs => exact (hosted_ofParts hn x).bind fun _ => (hosted_ofItems hn xs).bind fun _ => .ok _

theorem hosted_ofRows (hn : ∀ x, Hosted (name x)) (rows : List (Value × Value)) :
    Hosted (ofRows w name rows) := by
  cases rows with
  | nil => exact .ok []
  | cons row rows =>
    obtain ⟨k, x⟩ := row
    exact (hosted_ofParts hn k).bind fun _ => (hosted_ofParts hn x).bind fun _ =>
      (hosted_ofRows hn rows).bind fun _ => .ok _

end

theorem hosted_ofValue (w : World) (x : Value) : Hosted (ofValue w x) := by
  have deep {α : Type} : Hosted (.error .tooDeep : Except Fault α) := nofun
  have exposed (x : Value) : Hosted (w.exposed x) :=
    World.hosted_expand (fun o => World.hosted_follow (fun _ _ => w.hosted_inside) (fun _ => deep) _ _ o)
      x
  exact (exposed x).bind fun _ => hosted_ofParts (fun x => (exposed x).bind fun _ =>
    hosted_ofParts (fun _ => deep) _) _

end Answer

namespace Session

variable {w v : World} {l : Ledger} {C : Nat → Prop} {d c : String} {p : Draft}
  {D : Definition Stored} {base : Option String} {n m : Nat} {x : Except Fault Value}

/-! ## One attempt -/

def Fresh (w : World) (r : Owner) : Prop := ∃ n, r = .cls n ∧ w.classes.length ≤ n

structure AddsClass (w : World) (l : Ledger) (C : Nat → Prop) (c : String) (v : World) (l' : Ledger)
    (C' : Nat → Prop) : Prop extends w.Advances l C v l' C' (Fresh w) where
  definitions : v.definitionIds = w.definitionIds
  classes : ∀ c', c' ≠ c → Table.find? v.classIds c' = Table.find? w.classIds c'

theorem AddsClass.unnamed {l' : Ledger} {C' : Nat → Prop}
    (h : w.Advances l C v l' C' fun _ => False) (hn : v.names = w.names) : AddsClass w l C c v l' C' where
  toAdvances := h.mono fun _ => False.elim
  definitions := congrArg World.Names.definitions hn
  classes c' _ := congrArg (fun names : World.Names => Table.find? names.classes c') hn

theorem AddsClass.later (h : w.Follows l C) (hl : w.Later v fun _ => False) :
    AddsClass w l C c v l C :=
  .unnamed (h.advances_later hl ((hl.retains h.data fun _ _ => not_false).holdsData h.data)
    (fun _ => id) fun _ => .inl) hl.names

theorem AddsClass.entered {u : World} {b : ClassRef} {l' : Ledger} {C' : Nat → Prop}
    (hl : w.Later u fun _ => False) (hn : w.classes.length ≤ n)
    (hv : v = u.named { u.names with classes := Table.insert c b u.classIds })
    (h : w.Advances l C v l' C' (· = .cls n)) : AddsClass w l C c v l' C' where
  toAdvances := h.mono fun r hr => ⟨n, hr, hn⟩
  definitions := by
    rw [hv]
    exact congrArg World.Names.definitions hl.names
  classes c' hne := by
    rw [hv]
    refine (Table.find?_insert u.classIds c c' _).trans ?_
    rw [if_neg hne.symm]
    exact congrArg (fun names : World.Names => Table.find? names.classes c') hl.names

theorem AddsClass.of_log {log : List Record} {l' : Ledger} {C' : Nat → Prop} (h : w.Follows l C)
    (ha : AddsClass { w with log } l C c v l' C') : AddsClass w l C c v l' C' where
  toAdvances := ((h.advances_log log).mono fun _ => False.elim).trans ha.toAdvances
  definitions := ha.definitions
  classes := ha.classes

theorem not_fresh (h : w.Follows l C) {a : Account} (hn : l (.cls n) = some a) :
    ¬ Fresh w (.cls n) := by
  rintro ⟨m, ⟨⟩, hm⟩
  exact Nat.not_lt_of_le hm (h.cls_lt hn)

theorem adds_adapted {kind label module : String} {b : ClassRef} {u : World} {y : Except Fault Value}
    (h : w.Follows l C) (hbase : Bases w kind base b) (hl : w.Later u fun _ => False) (hy : Hosted y)
    (hrest : (v = u ∧ ∃ f, x = .error f ∧ (y = .error f ∨ f = .mismatch ∧ ∃ a, y = .ok a)) ∨
      ∃ b a, y = .ok (World.classValue b) ∧ x = .ok a ∧
        v = u.named { u.names with classes := Table.insert c b u.classIds })
    (hmade : (∃ a, x = .ok a) → ∃ n l' C', w.classes.length ≤ n ∧
      w.Advances l C v l' C' (· = .cls n)) :
    (∃ l' C', AddsClass w l C c v l' C') ∧ Gated w kind label module base x := by
  rcases hrest with ⟨rfl, f, rfl, hf⟩ | ⟨b, a, rfl, rfl, hv⟩
  · refine ⟨⟨l, C, .later h hl⟩, hbase.gated ?_⟩
    rcases hf with rfl | ⟨rfl, -⟩
    · exact hy.error
    · nofun
  · obtain ⟨n, l', C', hn, ha⟩ := hmade ⟨a, rfl⟩
    exact ⟨⟨l', C', .entered hl hn hv ha⟩, hbase.gated (.ok a)⟩

/-- No helper of a definition that is adapted for a function-calling host is told of classes, and none
stands in for the first method that the class above lacks. -/
structure Unaided (w : World) (base : Option String) (definition : Value) : Prop where
  untold : .str "__init_subclass__" ∉ w.helperNames definition
  serving : ∀ b, Bases w llmHost base b → servingClassRef ∈ w.lineage b →
    w.find? b "param" = none ∧ .str "param" ∉ w.helperNames definition
  plain : ∀ b, Bases w llmHost base b → functionClassRef ∉ w.lineage b → servingClassRef ∉ w.lineage b →
    .str "tool_name" ∉ w.helperNames definition

theorem attempt_toLlm (h : w.Follows l C) (hd : l (.definition d) = some (.definition p D))
    (hfits : Unaided w base p.value)
    (hr : (machine.step (.toLlm (some d) c base)).exec w = (x, v)) :
    (∃ l' C', AddsClass w l C c v l' C') ∧
      Gated w llmHost "LLM tool host" "tool_forge.hosts.llm" base x := by
  cases h.enters _ _ hd with
  | definition holds =>
  have hno := holds.helper?_none hfits.untold
  by_cases hbase : ∃ b, Bases w llmHost base b
  rotate_left
  · obtain ⟨rfl, hgate⟩ := exec_toLlm_none holds (fun b hb => hbase ⟨b, hb⟩) hr
    exact ⟨⟨l, C, .unnamed (.refl h _) rfl⟩, hgate⟩
  obtain ⟨b, hbase⟩ := hbase
  obtain ⟨m, a, rfl, hm⟩ := hbase.entered h
  rcases stepLlm_cases holds hr with ⟨rfl, hnone, -, hosted⟩ | ⟨given, y, u, hgiven, hy, hrest⟩
  · exact ⟨⟨l, C, .unnamed (.refl h _) rfl⟩, hbase.gated hosted⟩
  have hreq : (Machine.requireHost llmHost given "LLM tool host" "tool_forge.hosts.llm").exec w =
      (.ok (World.classValue (.made m)), w) := hbase.exec_requireHost hgiven rfl
  cases h.enters _ _ hm with
  | function hf =>
    obtain ⟨hl, hosted, -⟩ := Machine.adaptLlm_cases 995 holds.toDeclares hf.base hreq hy
    refine adds_adapted h hbase hl hosted hrest ?_
    rintro ⟨answer, rfl⟩
    obtain ⟨⟨f, ⟨⟩⟩, -⟩ | ⟨n, a, C', -, -, -, hn, -, -, -, ha, -⟩ := advances_toLlm h hd hno hbase hm hr
    exact ⟨n, _, C', hn, ha⟩
  | serving hf =>
    obtain ⟨hlacks, hparam⟩ := hfits.serving _ hbase hf.line.1
    obtain ⟨hl, hosted, hmade⟩ := Machine.adaptLlm_serving 995 holds.toDeclares hf.base hf.fields hlacks
      (holds.helper?_none hparam) hno hreq hy
    refine adds_adapted h hbase hl hosted hrest ?_
    rintro ⟨answer, rfl⟩
    obtain ⟨-, f, ⟨⟩, -⟩ | ⟨b', -, rfl, -, rfl⟩ := hrest
    obtain ⟨text, own, hcls, -, hat, hown⟩ := hmade _ rfl
    cases hcls
    have hret := hl.retains h.data fun _ _ => not_false
    have hline := hf.line
    rw [← hl.lineage hf.methods.rooted] at hline
    have hfields := hf.fields
    rw [← hl.attributeNames hf.methods.rooted] at hfields
    have hdata : (Value.str text).Within (u.data C) ∧ D.description.Within (u.data C) :=
      ⟨trivial, holds.within_description.mono hret.data_below⟩
    have hclass : u.ServingClass w.classes.length ⟨.str text, D.description, none⟩ none C :=
      hat.servingClass (hl.servingBase hf.base) hfields hline
        (by have := h.bundled.classes_lt; omega) hown.methods hown.told (.inl hown.name)
        hown.description hdata
        (by rw [hown.schema]; exact .none)
        (fun k ⟨o, ho, _⟩ => by
          rw [hat.own?, hown.schema] at ho
          cases ho)
        nofun
    exact ⟨_, _, C, Nat.le_refl _, h.advances_class hl (hret.holdsData h.data) (fun _ => id)
      (fun _ => .inl) (.serving hclass) (fun k hk => nomatch hk) (fun k hk => hk.elim) c⟩
  | plain hf =>
    obtain ⟨hl, hosted, hfail⟩ := Machine.adaptLlm_unnamed 995 holds.toDeclares hf.rooted hf.untold
      (hf.lacks _ (by simp)) (holds.helper?_none (hfits.plain _ hbase hf.line.1 hf.line.2)) hreq hy
    refine adds_adapted h hbase hl hosted hrest ?_
    rintro ⟨answer, rfl⟩
    obtain ⟨-, f, ⟨⟩, -⟩ | ⟨b', -, rfl, -⟩ := hrest
    exact absurd rfl (hfail _)

def Unschemed (w : World) (base : Option String) : Prop :=
  ∀ b, Bases w mcpHost base b → functionClassRef ∈ w.lineage b → w.find? b "input_schema" = none

theorem attempt_toMcp {config : Option ConfigDraft} (h : w.Follows l C)
    (hd : l (.definition d) = some (.definition p D))
    (hfits : Unschemed w base)
    (hr : (machine.step (.toMcp (some d) c base config)).exec w = (x, v)) :
    (∃ l' C', AddsClass w l C c v l' C') ∧ ((∃ settings u, Configures w config settings u) →
      Gated w mcpHost "MCP tool host" "tool_forge.hosts.mcp" base x) := by
  cases h.enters _ _ hd with
  | definition holds =>
  by_cases hbase : ∃ b, Bases w mcpHost base b
  rotate_left
  · obtain ⟨hl, ⟨C', hdata, hC, hf⟩, hgate⟩ := exec_toMcp_none holds (fun b hb => hbase ⟨b, hb⟩) hr
    exact ⟨⟨l, C', .unnamed (h.advances_later hl hdata hC hf) hl.names⟩, hgate⟩
  obtain ⟨b, hbase⟩ := hbase
  obtain ⟨m, a, rfl, hm⟩ := hbase.entered h
  rcases stepMcp_cases holds hr with
    ⟨hg, -, hosted, -⟩ | ⟨given, settings, u₁, y, u, hgiven, hsettings, hy, hrest⟩
  · exact ⟨⟨l, _, .unnamed (h.advances_gains hg) hg.later.names⟩, fun _ => hbase.gated hosted⟩
  obtain ⟨hl₁, indent, hindent⟩ := hsettings.indents h.data h.bundled
  have hd₁ := (holds.unchanged hl₁).declares
  rw [Machine.adaptMcp_eq, Run.exec_bind, hbase.exec_requireHost hgiven hl₁.hosts] at hy
  dsimp only at hy
  rw [Run.exec_bind, hindent] at hy
  have hu₁ := h.advances_later hl₁ ((hl₁.retains h.data fun _ _ => not_false).holdsData h.data)
    (fun _ => id) fun _ => .inl
  suffices made : w.Later u (fun _ => False) ∧ Hosted y ∧ ((∃ a, x = .ok a) → ∃ n l' C',
      w.classes.length ≤ n ∧ w.Advances l C v l' C' (· = .cls n)) by
    obtain ⟨hl, hosted, hmade⟩ := made
    exact (adds_adapted h hbase hl hosted hrest hmade).imp_right fun hgate _ => hgate
  have failed (hfail : u₁.Later u (fun _ => False) ∧ Hosted y ∧ ∀ cls, y ≠ .ok cls) :
      w.Later u (fun _ => False) ∧ Hosted y ∧ ((∃ a, x = .ok a) → ∃ n l' C',
        w.classes.length ≤ n ∧ w.Advances l C v l' C' (· = .cls n)) := by
    obtain ⟨hl₂, hosted, hno⟩ := hfail
    refine ⟨hl₁.trans hl₂ fun _ hn _ => hn, hosted, ?_⟩
    rintro ⟨answer, rfl⟩
    obtain ⟨-, f, ⟨⟩, -⟩ | ⟨b', -, rfl, -⟩ := hrest
    exact absurd rfl (hno _)
  cases h.enters _ _ hm with
  | function hf =>
    have hb₁ := hl₁.functionBase hf.base h.data (fun _ _ => id) fun _ _ => id
    exact failed (Machine.adaptServed_function 995 hd₁ hb₁
      ((hl₁.find? hf.methods.rooted _).trans (hfits _ hbase hf.line.1)) hy)
  | serving hf =>
    obtain ⟨hl₂, hosted, -⟩ := Machine.adaptServed_cases 995 hd₁ (hl₁.servingBase hf.base) hy
    refine ⟨hl₁.trans hl₂ fun _ hn _ => hn, hosted, ?_⟩
    rintro ⟨answer, rfl⟩
    obtain ⟨⟨f, ⟨⟩⟩, -⟩ | ⟨n, a, C', -, -, -, hn, -, -, ha, -⟩ := advances_toMcp h hd hbase hm hr
    exact ⟨n, _, C', hn, ha⟩
  | plain hf =>
    have hf₁ := hf.moves (hl₁.moves fun _ => False)
    exact failed (Machine.adaptServed_unnamed 995 hd₁ hf₁.rooted hf₁.untold
      (hf₁.lacks _ (by simp)) hy)

/-! ## Sessions with attempts -/

def OfNoHost (w : World) (c : String) : Prop :=
  ∀ b, Table.find? w.classIds c = some b →
    functionClassRef ∉ w.lineage b ∧ servingClassRef ∉ w.lineage b

/-- Steps of a session that also makes classes of no host, and tries to adapt its definitions to any
class that is there. -/
inductive Attempting (w : World) : Step → Prop
  | orderly {s : Step} (h : Orderly w s) : Attempting w s
  | bare (id name : String) {attributes : Literal.Rows} (response : Option String)
    (execute : Option Block) (hs : Spares attributes plainNames) :
    Attempting w (.subclass id none name attributes response execute)
  | below (id : String) {base : String} (name : String) {attributes : Literal.Rows}
    (response : Option String) (execute : Option Block) (hb : OfNoHost w base)
    (hs : Spares attributes plainNames) :
    Attempting w (.subclass id (some base) name attributes response execute)
  | toLlm {d : String} (c : String) {base : Option String}
    (h : ∀ x, Table.find? w.definitionIds d = some x → Unaided w base x) :
    Attempting w (.toLlm (some d) c base)
  | toMcp (d c : String) {base : Option String} (config : Option ConfigDraft) (h : Unschemed w base) :
    Attempting w (.toMcp (some d) c base config)

theorem Attempting.log {s : Step} (h : Attempting w s) (log : List Record) :
    Attempting { w with log } s := by
  cases h with
  | orderly h => exact .orderly (h.log log)
  | bare id name response execute hs => exact .bare id name response execute hs
  | below id name response execute hb hs => exact .below id name response execute hb hs
  | toLlm c h => exact .toLlm c fun x hx => ⟨(h x hx).untold, (h x hx).serving, (h x hx).plain⟩
  | toMcp d c config h => exact .toMcp d c config h

theorem advances_attempting {s : Step} (h : w.Follows l C) (hs : Attempting w s)
    (hr : (machine.step s).exec w = (x, v)) :
    ∃ l' C' R, w.Advances l C v l' C' R ∧ ∀ kind, R (.host kind) → Registers kind s := by
  have unchanged (hv : v = w) :
      ∃ l' C' R, w.Advances l C v l' C' R ∧ ∀ kind, R (.host kind) → Registers kind s :=
    ⟨l, C, fun _ => False, hv ▸ .refl h _, nofun⟩
  have adds {c : String} (ha : ∃ l' C', AddsClass w l C c v l' C') :
      ∃ l' C' R, w.Advances l C v l' C' R ∧ ∀ kind, R (.host kind) → Registers kind s := by
    obtain ⟨l', C', ha⟩ := ha
    exact ⟨l', C', _, ha.toAdvances, nofun⟩
  cases hs with
  | orderly hs => exact advances_step h hs hr
  | bare id name response execute hs =>
    obtain ⟨l', C', n, ha⟩ :=
      advances_subclass_plain h exec_subclass_bare (fun _ => World.plainBase_object _) hs hr
    exact ⟨l', C', _, ha, nofun⟩
  | @below id base name attributes response execute hb hs =>
    cases hfound : Table.find? w.classIds base with
    | none =>
      obtain ⟨f, hf⟩ : ∃ f, (machine.step (.subclass id (some base) name attributes response
        execute)).exec w = (.error f, w) := exec_subclass_none id hfound
      cases hf.symm.trans hr
      exact unchanged rfl
    | some b =>
      obtain ⟨m, a, rfl, hm⟩ := h.classes base b hfound
      cases h.plain_of_line hm (hb _ hfound)
      obtain ⟨l', C', n, ha⟩ := advances_subclass_plain h (exec_subclass hfound) (fun hu => by
        cases hu.enters _ _ hm with
        | plain hf => exact hf.base) hs hr
      exact ⟨l', C', _, ha, nofun⟩
  | @toLlm d c base hfits =>
    cases hfound : Table.find? w.definitionIds d with
    | none =>
      cases (exec_adapt_none hfound c base none).1.symm.trans hr
      exact unchanged rfl
    | some y =>
      obtain ⟨a, ha⟩ := h.definitions d y hfound
      cases h.enters _ _ ha with
      | definition holds => exact adds (attempt_toLlm h ha (hfits _ holds.named) hr).1
  | toMcp d c config hfits =>
    rename_i base
    cases hfound : Table.find? w.definitionIds d with
    | none =>
      cases (exec_adapt_none hfound c base config).2.symm.trans hr
      exact unchanged rfl
    | some y =>
      obtain ⟨a, ha⟩ := h.definitions d y hfound
      cases h.enters _ _ ha with
      | definition holds => exact adds (attempt_toMcp h ha hfits hr).1

def registration? (w : World) (kind : String) : Step → Option (Option ClassRef)
  | .register k cls => if k = kind then cls.mapM (Table.find? w.classIds) else none
  | .unregister k => if k = kind then some none else none
  | _ => none

theorem registration?_none {s : Step} {kind : String} (h : ¬ Registers kind s) :
    registration? w kind s = none := by
  unfold registration?
  split
  · exact if_neg h
  · exact if_neg h
  · rfl

theorem resolveHost_registers {s : Step} {kind : String} (hs : Registers kind s)
    (hr : (machine.step s).exec w = (x, v)) :
    v.resolveHost kind = (registration? w kind s).getD (w.resolveHost kind) := by
  cases s with
  | register k cls =>
    obtain rfl : k = kind := hs
    unfold registration?
    dsimp only
    rw [if_pos rfl]
    cases hc : cls.mapM (Table.find? w.classIds) with
    | none =>
      obtain ⟨f, hf⟩ := exec_register_none hc
      cases hf.symm.trans hr
      rfl
    | some c =>
      obtain ⟨u, -, hu⟩ := exec_register hc
      cases hu.symm.trans hr
      exact (resolveHost_register u k k c).trans (if_pos rfl)
  | unregister k =>
    obtain rfl : k = kind := hs
    have step : (machine.step (.unregister k)).exec w = (.ok .null, w.unregisterHost k) := rfl
    cases step.symm.trans hr
    unfold registration?
    dsimp only
    rw [if_pos rfl]
    exact (resolveHost_unregister w k k).trans (if_pos rfl)
  | _ => exact hs.elim

theorem perform_attempting {s : Step} (h : w.Follows l C) (hs : Attempting w s) :
    (∃ l' C', (perform w s).2.Follows l' C') ∧ ∀ kind,
      (perform w s).2.resolveHost kind = (registration? w kind s).getD (w.resolveHost kind) := by
  have logged := h.advances_log []
  rw [perform_eq]
  cases hr : (machine.step s).exec { w with log := [] } with
  | mk x v =>
  obtain ⟨l', C', R, ha, hk⟩ := advances_attempting logged.follows (hs.log []) hr
  refine ⟨⟨l', C', ha.follows⟩, fun kind => ?_⟩
  by_cases hs : Registers kind s
  · exact resolveHost_registers (w := { w with log := [] }) hs hr
  · rw [registration?_none hs]
    exact ha.hosts kind fun hr => hs (hk kind hr)

def bundledHost (kind : String) : Option ClassRef :=
  if kind = llmHost then some functionClassRef
  else if kind = mcpHost then some servingClassRef
  else none

/-- A world that a session with attempts comes to which starts afresh, and what was said last of each
host. -/
inductive Tried : World → (String → Option ClassRef) → Prop
  | start (logFrom : Int) : Tried { start with logFrom } bundledHost
  | step {w : World} {standing : String → Option ClassRef} {s : Step} (h : Tried w standing)
    (hs : Attempting w s) :
    Tried (perform w s).2 fun kind => (registration? w kind s).getD (standing kind)

variable {standing : String → Option ClassRef}

theorem resolveHost_start (kind : String) : start.resolveHost kind = bundledHost kind := by
  have hosts : start.hosts = [(llmHost, some functionClassRef), (mcpHost, some servingClassRef)] := rfl
  unfold World.resolveHost bundledHost Table.find?
  rw [hosts]
  by_cases hl : kind = llmHost
  · subst hl
    rfl
  · by_cases hm : kind = mcpHost
    · subst hm
      rfl
    · simp [hl, hm, Ne.symm hl, Ne.symm hm]

theorem Tried.follows (h : Tried w standing) :
    (∃ l C, w.Follows l C) ∧ ∀ kind, w.resolveHost kind = standing kind := by
  induction h with
  | start logFrom => exact ⟨⟨_, _, follows_start logFrom⟩, resolveHost_start⟩
  | step _ hs ih =>
    obtain ⟨⟨l, C, hf⟩, hhosts⟩ := ih
    obtain ⟨hf', hhosts'⟩ := perform_attempting hf hs
    exact ⟨hf', fun kind => (hhosts' kind).trans (by rw [hhosts])⟩

/-! ## What attempts leave -/

/-- A definition that is there is tried to be adapted to a host, with a configuration that can be made. -/
inductive Attempt (w : World) (c : String) (base : Option String) :
    String → String → String → Step → Prop
  | toLlm {d : String} {y : Value} (hd : Table.find? w.definitionIds d = some y)
    (h : Unaided w base y) :
    Attempt w c base llmHost "LLM tool host" "tool_forge.hosts.llm" (.toLlm (some d) c base)
  | toMcp {d : String} {y : Value} {config : Option ConfigDraft}
    (hd : Table.find? w.definitionIds d = some y) (h : Unschemed w base)
    (hc : ∃ settings u, Configures { w with log := [] } config settings u) :
    Attempt w c base mcpHost "MCP tool host" "tool_forge.hosts.mcp" (.toMcp (some d) c base config)

/-- Which classes stand for hosts, the definitions and the classes that were there are as they were, and
answer what they answered. At most one name is given to another class. -/
structure Unaffected (w v : World) (c : String) : Prop where
  hosts : ∀ kind, v.resolveHost kind = w.resolveHost kind
  definitions : ∀ d, Table.find? v.definitionIds d = Table.find? w.definitionIds d
  classes : ∀ c', c' ≠ c → Table.find? v.classIds c' = Table.find? w.classIds c'
  asksDefinition : ∀ d y, Table.find? w.definitionIds d = some y → ∀ g : DefinitionGetter,
    (perform v (g.step d)).1.outcome = (perform w (g.step d)).1.outcome
  asksFunction : ∀ b c₁ c₂, Table.find? w.classIds c₁ = some b → Table.find? v.classIds c₂ = some b →
    functionClassRef ∈ w.lineage b → ∀ g : FunctionGetter,
      (perform v (.callClass c₂ g.attribute [] [])).1.outcome =
        (perform w (.callClass c₁ g.attribute [] [])).1.outcome
  asksServing : ∀ b c₁ c₂, Table.find? w.classIds c₁ = some b → Table.find? v.classIds c₂ = some b →
    servingClassRef ∈ w.lineage b → ∀ g : ServingGetter,
      (perform v (.callClass c₂ g.attribute [] [])).1.outcome =
        (perform w (.callClass c₁ g.attribute [] [])).1.outcome

theorem AddsClass.unaffected {l' : Ledger} {C' : Nat → Prop} (h : w.Follows l C)
    (ha : AddsClass w l C c v l' C') : Unaffected w v c where
  hosts kind := ha.hosts kind nofun
  definitions d := by rw [ha.definitions]
  classes := ha.classes
  asksDefinition d y hd g := by
    obtain ⟨a, hl⟩ := h.definitions d y hd
    have hl' := (ha.others (.definition d) nofun).trans hl
    cases h.enters _ _ hl with
    | definition hw =>
    cases ha.follows.enters _ _ hl' with
    | definition hv => exact definition_tells_kept hw hv ha.retains g
  asksFunction b c₁ c₂ hc hc' hline g := by
    obtain ⟨m, a, rfl, hm⟩ := h.classes c₁ b hc
    obtain ⟨card, s, rfl, -⟩ := h.function_of_line hm hline
    exact advances_function_tells h ha.toAdvances (not_fresh h hm) hm hc hc' g
  asksServing b c₁ c₂ hc hc' hline g := by
    obtain ⟨m, a, rfl, hm⟩ := h.classes c₁ b hc
    obtain ⟨card, cell, rfl, -⟩ := h.serving_of_line hm hline
    exact advances_serving_tells h ha.toAdvances (not_fresh h hm) hm hc hc' g

theorem Gated.outcome {kind label module : String} (h : Gated w kind label module base x) :
    Gated w kind label module base (x.bind (Answer.ofValue v)) := by
  cases x with
  | error f =>
    intro kind' label' module'
    rw [← h kind' label' module']
    exact ⟨fun he => by cases he; rfl, fun he => by cases he; rfl⟩
  | ok a =>
    intro kind' label' module'
    refine ⟨fun he => absurd he (Answer.hosted_ofValue v a kind' label' module'), fun he => ?_⟩
    cases (h kind' label' module').mpr he

/-- Whatever a session did before, an attempt to adapt a definition fails for a missing host exactly
where nothing is given as a base and what was said last of the host is that no class stands for it.
Whatever comes of the attempt, all that was there is as it was and answers as before. -/
theorem attempts_atomic (h : Tried w standing) :
    (∀ kind, w.resolveHost kind = standing kind) ∧
    ∀ kind label module c base s, Attempt w c base kind label module s →
      (∀ kind' label' module',
        (perform w s).1.outcome = .error (.hostMissing kind' label' module') ↔
          base = none ∧ standing kind = none ∧ kind' = kind ∧ label' = label ∧ module' = module) ∧
      Unaffected w (perform w s).2 c := by
  obtain ⟨⟨l, C, hf⟩, hhosts⟩ := h.follows
  refine ⟨hhosts, fun kind label module c base s hs => ?_⟩
  have logged := (hf.advances_log []).follows
  have attempted : (∃ l' C', AddsClass { w with log := [] } l C c (perform w s).2 l' C') ∧
      Gated w kind label module base ((machine.step s).exec { w with log := [] }).1 := by
    rw [perform_eq]
    cases hs with
    | toLlm hd hfits =>
      obtain ⟨a, ha⟩ := hf.definitions _ _ hd
      cases hf.enters _ _ ha with
      | definition holds =>
      cases holds.named.symm.trans hd
      exact attempt_toLlm logged ha ⟨hfits.untold, hfits.serving, hfits.plain⟩ rfl
    | toMcp hd hfits hc =>
      obtain ⟨a, ha⟩ := hf.definitions _ _ hd
      cases hf.enters _ _ ha with
      | definition holds =>
      obtain ⟨hadds, hgate⟩ := attempt_toMcp logged ha hfits rfl
      exact ⟨hadds, hgate hc⟩
  obtain ⟨⟨l', C', hadds⟩, hgate⟩ := attempted
  refine ⟨fun kind' label' module' => ?_, (hadds.of_log hf).unaffected hf⟩
  rw [perform_outcome, hgate.outcome kind' label' module', hhosts]

def unhosted : World :=
  (perform (perform (perform { start with logFrom := 30 } (.define "d" (.str "tool") none)).2
    (.subclass "B" none "B" [] none none)).2 (.unregister llmHost)).2

theorem tried_unhosted : ∃ standing, Tried unhosted standing ∧ standing llmHost = none :=
  ⟨_, .step (.step (.step (.start 30) (.orderly (.define "d" (.str "tool"))))
    (.bare "B" "B" none none (spares_nil _))) (.orderly (.unregister llmHost)), rfl⟩

set_option maxRecDepth 100000 in
theorem attempt_unhosted {base : Option String} (hbase : base = none ∨ base = some "B") :
    Attempt unhosted "L" base llmHost "LLM tool host" "tool_forge.hosts.llm"
      (.toLlm (some "d") "L" base) := by
  have helpless : (Table.find? unhosted.definitionIds "d").map
      (fun y => (unhosted.helperNames y).isEmpty) = some true := by
    decide +kernel
  obtain ⟨y, hy, hnames⟩ := Option.map_eq_some_iff.mp helpless
  rw [List.isEmpty_iff] at hnames
  have absent (name : String) : .str name ∉ unhosted.helperNames y := by
    rw [hnames]
    exact List.not_mem_nil
  have unserved (b : ClassRef) (hb : Bases unhosted llmHost base b) :
      servingClassRef ∉ unhosted.lineage b := by
    rcases hbase with rfl | rfl
    · have missing : unhosted.resolveHost llmHost = none := by decide +kernel
      cases missing.symm.trans hb
    · have named : Table.find? unhosted.classIds "B" = some (.made 9) := by decide +kernel
      cases named.symm.trans hb
      decide +kernel
  exact .toLlm hy ⟨absent _, fun b hb hline => absurd hline (unserved b hb), fun _ _ _ _ => absent _⟩

/-- Without a base the attempt fails for the missing host, and on a class of no host everything stays as
it was. -/
theorem attempts_atomic_unhosted : ∃ standing, Tried unhosted standing ∧ standing llmHost = none ∧
    (perform unhosted (.toLlm (some "d") "L" none)).1.outcome =
      .error (.hostMissing llmHost "LLM tool host" "tool_forge.hosts.llm") ∧
    Unaffected unhosted (perform unhosted (.toLlm (some "d") "L" (some "B"))).2 "L" := by
  obtain ⟨standing, hw, hnone⟩ := tried_unhosted
  obtain ⟨-, attempts⟩ := attempts_atomic hw
  refine ⟨standing, hw, hnone, ?_, (attempts _ _ _ _ _ _ (attempt_unhosted (.inr rfl))).2⟩
  exact ((attempts _ _ _ _ _ _ (attempt_unhosted (.inl rfl))).1 _ _ _).mpr ⟨rfl, hnone, rfl, rfl, rfl⟩

def toldByHelper : World :=
  (performAll { start with logFrom := 30 } [.define "d" (.str "tool") none,
    .help (some "d") .ofInstance "__init_subclass__" (.mk [] none (.lit .null)),
    .toLlm (some "d") "L" none, .define "e" (.str "tool") none,
    .param (some "e") { name := .str "x" }]).2

/-- A class of no host, and a definition with a helper that unregisters a host, under the name of a
method that the class lacks. -/
def standingIn : World :=
  (performAll { start with logFrom := 30 } [.subclass "B" none "B" [] none none,
    .define "d" (.str "tool") none,
    .help (some "d") .ofInstance "tool_name" (.mk [] none (.perform (.unregister llmHost)))]).2

def namesTold (reply : Reply) : List String :=
  match reply.outcome with
  | .ok (.dict rows) => rows.filterMap fun
    | (.str name, _) => some name
    | _ => none
  | _ => []

set_option maxRecDepth 100000 in
/-- An attempt on the one class declares the parameter on that class, and an attempt on the other one
unregisters the host. -/
theorem attempts_reach :
    (namesTold (perform toldByHelper (.callClass "L" "parameters" [] [])).1 = [] ∧
      namesTold (perform (perform toldByHelper (.toLlm (some "e") "M" (some "L"))).2
        (.callClass "L" "parameters" [] [])).1 = ["x"]) ∧
    standingIn.resolveHost llmHost = some functionClassRef ∧
      (perform standingIn (.toLlm (some "d") "L" (some "B"))).2.resolveHost llmHost = none := by
  decide +kernel

end Session

end Toolwright
