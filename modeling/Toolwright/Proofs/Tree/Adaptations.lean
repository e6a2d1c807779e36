import Toolwright.Proofs.Publication.Agreement
import Toolwright.Proofs.Tree.Steps

/-!
# Hosts and adaptations in a session that keeps account

A class stands for a host from the step that registers it to the next one that registers or unregisters
something for that host. Nothing else tells which class stands for it.

A definition that is adapted to a class of a host becomes a new class of that host, on which what the
definition declared is declared. An adaptation that fails leaves nothing.
-/

namespace Toolwright

set_option autoImplicit false

/-! ## Classes that stand for hosts -/

namespace Run

variable {w : World}

theorem exec_log {notices : List Notice} (h : ∀ n ∈ notices, ∃ text, n.message = .ok text) (w : World) :
    ∃ v, (Run.log notices).exec w = (.ok (), v) ∧ w.Noted v := by
  induction notices generalizing w with
  | nil => exact ⟨w, rfl, .refl w⟩
  | cons n notices ih =>
    obtain ⟨text, hn⟩ := h n List.mem_cons_self
    have noted : ∃ v, (note n.logger n.level (lift n.message)).exec w = (.ok (), v) ∧ w.Noted v := by
      rw [hn]
      unfold note
      rw [exec_bind, exec_world]
      dsimp only
      split
      · exact ⟨_, rfl, _, rfl⟩
      · exact ⟨w, rfl, .refl w⟩
    obtain ⟨v, hv, log, rfl⟩ := noted
    obtain ⟨u, hu, log', rfl⟩ := ih (fun n hm => h n (List.mem_cons_of_mem _ hm)) { w with log }
    refine ⟨_, ?_, log', rfl⟩
    show exec (do
      note n.logger n.level (lift n.message)
      Run.log notices) w = _
    rw [exec_bind, hv]
    exact hu

end Run

namespace Session

variable {w v : World} {l : Ledger} {C : Nat → Prop} {kind : String} {x : Except Fault Value}

def Registers (kind : String) : Step → Prop
  | .register k _ => k = kind
  | .unregister k => k = kind
  | _ => False

theorem registerNotices_text (w : World) (kind : String) (c : Option ClassRef) :
    ∀ n ∈ w.registerNotices kind c, ∃ text, n.message = .ok text := by
  intro n hn
  unfold World.registerNotices at hn
  dsimp only at hn
  split at hn
  · split at hn
    · rw [List.mem_singleton.mp hn]
      exact ⟨_, rfl⟩
    · simp only [List.mem_cons, List.not_mem_nil, or_false] at hn
      rcases hn with rfl | rfl <;> exact ⟨_, rfl⟩
  · rw [List.mem_singleton.mp hn]
    exact ⟨_, rfl⟩

theorem exec_register {cls : Option String} {c : Option ClassRef}
    (hc : cls.mapM (Table.find? w.classIds) = some c) : ∃ u, w.Noted u ∧
      (machine.step (.register kind cls)).exec w = (.ok .null, u.registerHost kind c) := by
  have given : (Run.classIfGiven cls).exec w = (.ok c, w) := by
    cases cls with
    | none =>
      cases hc
      rfl
    | some id =>
      rw [Option.mapM_some] at hc
      cases hf : Table.find? w.classIds id with
      | none =>
        rw [hf] at hc
        cases hc
      | some b =>
        rw [hf] at hc
        cases hc
        unfold Run.classIfGiven
        rw [Option.mapM_some, map_eq_pure_bind, Run.exec_bind, exec_classById rfl, hf]
        rfl
  obtain ⟨u, hu, hn⟩ := Run.exec_log (registerNotices_text w kind c) w
  refine ⟨u, hn, ?_⟩
  have step : machine.step (.register kind cls) = (do
      let c ← Run.classIfGiven cls
      Run.log ((← Run.world).registerNotices kind c)
      modify fun w => w.registerHost kind c
      return .null) := rfl
  rw [step, Run.exec_bind, given]
  dsimp only
  rw [Run.exec_bind, Run.exec_world]
  dsimp only
  rw [Run.exec_bind, hu]
  rfl

theorem exec_register_none {cls : Option String}
    (hc : cls.mapM (Table.find? w.classIds) = none) :
    ∃ f, (machine.step (.register kind cls)).exec w = (.error f, w) := by
  cases cls with
  | none => cases hc
  | some id =>
    rw [Option.mapM_some, Option.map_eq_map, Option.map_eq_none_iff] at hc
    have given : Run.classIfGiven (some id) = (do return some (← Run.classById id)) := by
      unfold Run.classIfGiven
      rw [Option.mapM_some, map_eq_pure_bind]
    have step : machine.step (.register kind (some id)) = (do
        let c ← Run.classIfGiven (some id)
        Run.log ((← Run.world).registerNotices kind c)
        modify fun w => w.registerHost kind c
        return .null) := rfl
    rw [step, given, bind_assoc, Run.exec_bind, exec_classById rfl, hc]
    exact ⟨_, rfl⟩

theorem resolveHost_register (w : World) (kind kind' : String) (c : Option ClassRef) :
    (w.registerHost kind c).resolveHost kind' = if kind = kind' then c else w.resolveHost kind' := by
  unfold World.registerHost World.resolveHost
  dsimp only
  rw [Table.find?_insert]
  split <;> rfl

theorem resolveHost_unregister (w : World) (kind kind' : String) :
    (w.unregisterHost kind).resolveHost kind' =
      if kind = kind' then none else w.resolveHost kind' := by
  unfold World.unregisterHost World.resolveHost
  dsimp only
  rw [Table.find?_erase]
  split <;> rfl

theorem advances_hosts (h : w.Follows l C) (hosts : List (String × Option ClassRef)) (kind : String)
    (hh : ∀ c, World.resolveHost { w with hosts } kind = some c →
      w.resolveHost kind = some c ∨ ∃ id, Table.find? w.classIds id = some c)
    (ho : ∀ kind', kind' ≠ kind → World.resolveHost { w with hosts } kind' = w.resolveHost kind') :
    w.Advances l C { w with hosts } l C (· = .host kind) where
  follows := h.unchanged (w.moves_registered hosts _ _) (fun kind' c hc => by
      by_cases hk : kind' = kind
      · exact hk ▸ hh c (hk ▸ hc)
      · exact .inl (ho kind' hk ▸ hc))
    h.data (fun _ => id) (fun _ => .inl) rfl
  leads := World.LeadsTo.refl.registered hosts
  retains := (w.moves_registered hosts (fun _ => False) fun _ => False).retains h.data
    fun _ _ => not_false
  data _ hk := hk
  fresh _ := .inl
  others _ _ := rfl
  hosts kind' hne := ho kind' fun he => hne (congrArg _ he)

theorem advances_register (h : w.Follows l C) {cls : Option String}
    (hr : (machine.step (.register kind cls)).exec w = (x, v)) :
    ∃ C', w.Advances l C v l C' (· = .host kind) := by
  cases hc : cls.mapM (Table.find? w.classIds) with
  | none =>
    obtain ⟨f, hf⟩ : ∃ f, (machine.step (.register kind cls)).exec w = (.error f, w) :=
      exec_register_none hc
    cases hf.symm.trans hr
    exact ⟨C, .refl h _⟩
  | some c =>
    obtain ⟨u, ⟨log, rfl⟩, hu⟩ : ∃ u, w.Noted u ∧ (machine.step (.register kind cls)).exec w =
      (.ok .null, u.registerHost kind c) := exec_register hc
    cases hu.symm.trans hr
    have logged := h.advances_log log
    refine ⟨C, (logged.mono fun _ => False.elim).trans
      (advances_hosts logged.follows _ kind (fun b hb => .inr ?_) fun kind' hne => ?_)⟩
    · have hb := (resolveHost_register _ kind kind c).symm.trans hb
      rw [if_pos rfl] at hb
      cases cls with
      | none =>
        cases hc
        cases hb
      | some id =>
        rw [Option.mapM_some] at hc
        obtain ⟨b', hb', he⟩ := Option.map_eq_some_iff.mp hc
        cases he
        cases hb
        exact ⟨id, hb'⟩
    · exact (resolveHost_register _ kind kind' c).trans (if_neg hne.symm)

theorem advances_unregister (h : w.Follows l C)
    (hr : (machine.step (.unregister kind)).exec w = (x, v)) :
    w.Advances l C v l C (· = .host kind) := by
  have step : (machine.step (.unregister kind)).exec w = (.ok .null, w.unregisterHost kind) := rfl
  cases step.symm.trans hr
  refine advances_hosts h _ kind (fun b hb => ?_) fun kind' hne => ?_
  · have hb := (resolveHost_unregister w kind kind).symm.trans hb
    rw [if_pos rfl] at hb
    cases hb
  · exact (resolveHost_unregister w kind kind').trans (if_neg hne.symm)

end Session

/-! ## Adaptations in a session that keeps account -/

namespace Machine

variable {w v : World} {n : Nat} {b : ClassRef} {p : Draft} {D : Definition Stored}
  {C : Nat → Prop} {text : String} {names : List String} {s s' : Shelf} {t : ParameterTable}

/-- What a definition was adapted to is a class of a function-calling host, unless a helper is told of
classes below it. -/
theorem FunctionTool.functionClass
    (h : FunctionTool w n b p D (reservedNames v (World.classValue b)) text names s' t C)
    (hb : w.FunctionBase b s t C) (hv : v.FunctionBase b s t C)
    (hline : Session.functionClassRef ∈ w.lineage b ∧ Session.servingClassRef ∉ w.lineage b)
    (hn : n ≠ 1) (hx : D.description.Within (w.data C))
    (ht : D.helper? "__init_subclass__" = none) :
    w.FunctionClass n (functionCard D text names t) s' C ∧
      w.className (.made n) = Naming.className text "" := by
  obtain ⟨own, hcls, hown⟩ := h.tool
  have plain : ∀ row ∈ functionMethods, row.1 ∉ ClassPlan.standing ∧
      row.1 ∉ ["_name", "_description", "_parameters", "definition", "execute"] ∧
      row.1.startsWith "__" = false := by decide +kernel
  refine ⟨?_, hcls.className⟩
  refine hcls.functionClass hb hline hn (fun row hr => ?_)
    (hown.own_none (by decide) (by decide) (.inr ht)) (.inl hown.name) hown.description
    ⟨trivial, hx⟩ ⟨_, h.furnished.parameters⟩ h.furnished.shelf
  obtain ⟨hs, hk, hp⟩ := plain row hr
  obtain ⟨k, hk'⟩ := hv.finds row hr
  exact hown.own_none hs hk (.inl (mem_reservedNames hp (World.mem_attributeNames hk')))

theorem ServedTool.servingClass {indent : Value} {schema : InputSchema}
    (h : ServedTool w n b p D indent text schema C) (hb : w.ServingBase b)
    (hf : ∀ name ∈ ["_name", "_description", "_input_schema"], name ∈ w.attributeNames b)
    (hline : Session.servingClassRef ∈ w.lineage b ∧ Session.functionClassRef ∉ w.lineage b)
    (hx : D.description.Within (w.data C)) :
    ∃ q, w.ServingClass (n + 1) (servingCard D text q) (some q.own) C ∧
      w.HasSchemaCell (n + 1) q.own ∧ w.className (.made (n + 1)) = Naming.className text "" ∧
      World.Exposes w w q schema := by
  obtain ⟨own, q, properties, hcls, hown, hat, -, hexposes⟩ := h.tool
  have plain : ∀ row ∈ servingMethods, row.1 ∉ ClassPlan.standing ∧ row.1 ∉ ["_name",
      "_description", "_input_schema", "definition", "helper_class", "call"] := by decide
  have hcell : w.HasSchemaCell (n + 1) q.own :=
    ⟨q.object, (hcls.own? _).trans hown.schema, _, hat.object.object, rfl⟩
  refine ⟨q, ?_, hcell, hcls.className, hexposes⟩
  have hdata : (servingCard D text q).name.Within (w.data C) ∧
      (servingCard D text q).description.Within (w.data C) := ⟨trivial, hx⟩
  refine hcls.servingClass hb hf hline (Nat.succ_ne_zero n)
    (fun row hr => hown.others row.1 (plain row hr).1 (plain row hr).2)
    (hown.others _ (by decide) (by decide)) (.inl hown.name) hown.description hdata ?_ ?_ ?_
  · rw [hown.schema]
    exact .given hat.data.1 hat.data.2 hat.object
  · rintro k ⟨o, ho, obj, hobj, hk⟩
    rw [hcls.own?, hown.schema] at ho
    cases ho
    cases hat.object.object.symm.trans hobj
    exact hk
  · rintro k ⟨⟩
    exact (List.getElem?_eq_some_iff.mp hat.object.cell).1

end Machine

namespace Session

variable {w v : World} {l : Ledger} {C : Nat → Prop} {d c : String} {p : Draft}
  {D : Definition Stored} {base : Option String} {m : Nat} {card : FunctionCard} {s : Shelf}
  {served : ServingCard} {cell : Option Nat} {x : Except Fault Value}

/-- A definition that is adapted to a class of a function-calling host is entered as a class with what
it declared, on top of the parameters of that class. -/
theorem advances_toLlm (h : w.Follows l C) (hd : l (.definition d) = some (.definition p D))
    (hno : D.helper? "__init_subclass__" = none) (hbase : Bases w llmHost base (.made m))
    (hm : l (.cls m) = some (.function card s))
    (hr : (machine.step (.toLlm (some d) c base)).exec w = (x, v)) :
    ((∃ f, x = .error f) ∧ ∃ C', w.Advances l C v l C' fun _ => False) ∨
      ∃ n a C' text names, (∃ y, x = .ok y) ∧ w.classes.length ≤ n ∧
        w.textOf D.name = .ok text ∧ w.textsOf D.params = .ok names ∧
        (∃ s', a = .function (Machine.functionCard D text names card.parameters) s') ∧
        w.Advances l C v (l.enter (.cls n) a) C' (· = .cls n) ∧
        Table.find? v.classIds c = some (.made n) ∧
        v.className (.made n) = Naming.className text "" := by
  cases h.enters _ _ hd with
  | definition holds =>
  cases h.enters _ _ hm with
  | function hf =>
  have hlen := h.bundled.classes_lt
  have later {u : World} (hl : w.Later u fun _ => False) :
      u.HoldsData C ∧ w.Advances l C u l C fun _ => False :=
    have hdata := (hl.retains h.data fun _ _ => not_false).holdsData h.data
    ⟨hdata, h.advances_later hl hdata (fun _ => id) fun _ => .inl⟩
  obtain ⟨rfl, -, hx, -⟩ | ⟨given, y, u, hgiven, hy, hrest⟩ := stepLlm_cases holds hr
  · exact .inl ⟨hx, C, .refl h _⟩
  obtain ⟨hl, -, hmade⟩ := Machine.adaptLlm_cases 995 holds.toDeclares hf.base
    (hbase.exec_requireHost hgiven rfl) hy
  obtain ⟨hdata, ha⟩ := later hl
  obtain ⟨rfl, f, hx, -⟩ | ⟨b, a, rfl, rfl, rfl⟩ := hrest
  · exact .inl ⟨⟨f, hx⟩, C, ha⟩
  obtain ⟨text, names, rows, own, hcls, htext, hnames, hat, hown, hfurnished, hrows, -⟩ := hmade _ rfl
  cases hcls
  have hbase' := hl.functionBase hf.base h.data (fun _ _ => not_false) fun _ _ => not_false
  have hline := hf.line
  rw [← hl.lineage hf.methods.rooted] at hline
  obtain ⟨hclass, hname⟩ := Machine.FunctionTool.functionClass ⟨⟨own, hat, hown⟩, hfurnished⟩ hbase'
    hf.base hline (by omega)
    (holds.within_description.mono (hl.retains h.data fun _ _ => not_false).data_below) hno
  refine .inr ⟨_, _, C, text, names, ⟨a, rfl⟩, Nat.le_refl _, htext, hnames, ⟨_, rfl⟩,
    h.advances_class hl hdata (fun _ => id) (fun _ => .inl) (.function hclass) ?_ ?_ c,
    (Table.find?_insert u.classIds c c _).trans (if_pos rfl), hname⟩
  · exact fun k hk => h.allows_rows ⟨_, rows⟩ hm (Nat.le_refl _) hrows _ hk
  · exact fun k hk => Nat.le_of_eq (show k = _ from hk).symm

/-- A definition that is adapted to a class of a serving host is entered as a class with what it
declared, whatever was declared on that class. -/
theorem advances_toMcp {config : Option ConfigDraft} (h : w.Follows l C)
    (hd : l (.definition d) = some (.definition p D)) (hbase : Bases w mcpHost base (.made m))
    (hm : l (.cls m) = some (.serving served cell))
    (hr : (machine.step (.toMcp (some d) c base config)).exec w = (x, v)) :
    ((∃ f, x = .error f) ∧ ∃ C', w.Advances l C v l C' fun _ => False) ∨
      ∃ n a C' text q, (∃ y, x = .ok y) ∧ w.classes.length ≤ n ∧ w.textOf D.name = .ok text ∧
        a = .serving (Machine.servingCard D text q) (some q.own) ∧
        w.Advances l C v (l.enter (.cls n) a) C' (· = .cls n) ∧
        Table.find? v.classIds c = some (.made n) ∧
        v.className (.made n) = Naming.className text "" := by
  cases h.enters _ _ hd with
  | definition holds =>
  cases h.enters _ _ hm with
  | serving hf =>
  obtain ⟨hg, hx, -⟩ | ⟨given, settings, u₁, y, u, hgiven, hsettings, hy, hrest⟩ := stepMcp_cases holds hr
  · exact .inl ⟨hx, _, h.advances_gains hg⟩
  obtain ⟨hl₁, indent, hindent⟩ := hsettings.indents h.data h.bundled
  have hret := hl₁.retains h.data fun _ _ => not_false
  have hd₁ := (holds.unchanged hl₁).declares
  rw [Machine.adaptMcp_eq, Run.exec_bind, hbase.exec_requireHost hgiven hl₁.hosts] at hy
  dsimp only at hy
  rw [Run.exec_bind, hindent] at hy
  obtain ⟨hl₂, -, hmade⟩ := Machine.adaptServed_cases 995 hd₁ (hl₁.servingBase hf.base) hy
  have hl : w.Later u (fun _ => False) := hl₁.trans hl₂ fun _ hn _ => hn
  have hretu := hl.retains h.data fun _ _ => not_false
  obtain ⟨rfl, f, hx, -⟩ | ⟨b, a, rfl, rfl, rfl⟩ := hrest
  · exact .inl ⟨⟨f, hx⟩, C, h.advances_later hl (hretu.holdsData h.data) (fun _ => id) fun _ => .inl⟩
  obtain ⟨text, schema, C', hcls, htext, hschema, hdata, hC, hnew, hfresh, htool⟩ := hmade _ rfl
  cases hcls
  have hline := hf.line
  rw [← hl.lineage hf.methods.rooted] at hline
  have hfields := hf.fields
  rw [← hl.attributeNames hf.methods.rooted] at hfields
  obtain ⟨q, hclass, hcell, hname, -⟩ := htool.servingClass (hl.servingBase hf.base) hfields hline
    ((holds.within_description.mono hretu.data_below).mono (u.data_mono hC))
  have hle : w.cells.length ≤ q.own := Nat.le_trans hl₁.cells_le (hfresh _ hcell)
  refine .inr ⟨_, _, C', text, q, ⟨a, rfl⟩, Nat.le_succ_of_le hl₁.classes.length_le, ?_, rfl,
    h.advances_class hl hdata hC (fun k hk => (hnew k hk).imp_right (Nat.le_trans hl₁.cells_le))
      (.serving hclass) (fun k hk => .inr ?_) (fun k hk => hk.elim) c,
    (Table.find?_insert u.classIds c c _).trans (if_pos rfl), hname⟩
  · rw [← htext, hret.textOf h.data (holds.values _ List.mem_cons_self).1]
  · cases (show some q.own = some k from hk)
    exact hle

end Session

end Toolwright
