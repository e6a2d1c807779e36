import Toolwright.Proofs.Declaration.Draft

/-!
# Declaring

Each step that declares something of a definition changes cells of the definition alone, and leaves
it as the definition that was meant. A step that fails leaves the definition as it was.
-/

namespace Toolwright

set_option autoImplicit false

/-- What is declared of a definition. -/
inductive Builder where
  | describe (text : Literal)
  | param (draft : ParamDraft)
  | execute (block : Block)
  | help (scope : Scope) (name : String) (block : Block)
  /-- Takes the last parameter away. -/
  | dropParam

/-- The step that declares it of the definition that a name stands for. -/
def Builder.step (definition : String) : Builder → Step
  | .describe text => .describe (some definition) text
  | .param draft => .param (some definition) draft
  | .execute block => .execute (some definition) block
  | .help scope name block => .help (some definition) scope name block
  | .dropParam => .dropParam (some definition)

def Builder.draft? : Builder → Option ParamDraft
  | .param draft => some draft
  | _ => none

def Builder.helper? (op : Builder) (scope : Scope) (name : String) : Option Block :=
  match op with
  | .help s n block => if s = scope ∧ n = name then some block else none
  | _ => none

/-- The block of the helper of a scope that a definition has under a name. -/
def Definition.helperBlock? (D : Definition Stored) (scope : Scope) (name : String) :
    Option Block :=
  match scope with
  | .ofInstance => (Table.find? D.instanceHelpers name).map (·.block)
  | .ofClass => (Table.find? D.classHelpers name).map (·.block)

/-- What a definition becomes by a declaration. -/
inductive Definition.Next (D : Definition Stored) : Builder → Definition Stored → Prop
  | describe (text : Literal) (x : Value) : Next D (.describe text) (D.describe x)
  | declare (draft : ParamDraft) (spec : ParamSpec) : Next D (.param draft) (D.declare spec)
  | store (s : Stored) : Next D (.execute s.block) (D.store s)
  | help (scope : Scope) (name : String) (s : Stored) :
    Next D (.help scope name s.block) (D.help scope name s)
  | drop : Next D .dropParam { D with params := D.params.dropLast }

theorem Definition.Next.helperBlock? {D D' : Definition Stored} {op : Builder} (h : D.Next op D')
    (scope : Scope) (name : String) :
    D'.helperBlock? scope name = (op.helper? scope name).or (D.helperBlock? scope name) := by
  cases h with
  | describe text x =>
    cases x <;> rfl
  | declare draft spec => rfl
  | store s => rfl
  | drop => rfl
  | help scope' name' s =>
    cases scope' <;> cases scope <;>
      simp only [Definition.helperBlock?, Definition.help, Builder.helper?, Table.find?_insert,
        reduceCtorEq, false_and, true_and, if_false, Option.none_or]
    all_goals
      split <;> rfl

namespace World

variable {w v u : World} {p p' : Draft} {D D' : Definition Stored} {C own : Nat → Prop}

/-! ## Definitions in later worlds -/

theorem Declares.later (h : w.Declares p D C) (hl : w.Later v own) (hd : v.Drafts p' D')
    (ho : ∀ n, C n → ¬ own n) (hp : ∀ n ∈ p'.cells, n ∈ p.cells ∨ w.cells.length ≤ n)
    (hx : ∀ x ∈ D'.values, x ∈ D.values ∨ x.Within (w.data C) ∧ x.IsShared) :
    v.Declares p' D' C where
  toDrafts := hd
  bundled := hl.bundled h.bundled
  data := (hl.retains h.data ho).holdsData h.data
  apart n hn hc := by
    rcases hp n hn with hm | hle
    · exact h.apart n hm hc
    · exact absurd (h.data.lt hc) (Nat.not_lt_of_le hle)
  values x hm := by
    obtain ⟨hw, hs⟩ := (hx x hm).elim (h.values x) id
    exact ⟨hw.mono (hl.retains h.data ho).data_below, hs⟩

theorem Gains.declares (hg : w.Gains C v) (h : w.Declares p D C) :
    v.Declares p D (w.gained C v) where
  toDrafts := hg.later.drafts h.toDrafts fun _ _ => id
  bundled := hg.later.bundled h.bundled
  data := hg.data
  apart n hn hc := by
    rcases hc.1 with hc | hle
    · exact h.apart n hn hc
    · exact absurd (h.lt hn) (Nat.not_lt_of_le hle)
  values x hm := ⟨(h.values x hm).1.mono (hg.below h.data), (h.values x hm).2⟩

theorem Declares.not_changes (h : w.Declares p D C) (n : Nat) (hn : C n) : ¬ p.changes n := by
  intro hc
  refine h.apart n ?_ hn
  simp only [Draft.changes] at hc
  simp only [Draft.cells, List.mem_cons]
  omega

/-- A definition that was declared further, in a later world. -/
structure Further (w v : World) (p p' : Draft) (D' : Definition Stored) (C C' : Nat → Prop) :
    Prop where
  declares : v.Declares p' D' C'
  later : w.Later v p.changes
  place : p' = { p with specs := p'.specs }
  specs : ∀ s ∈ p'.specs, s ∈ p.specs ∨ w.cells.length ≤ s.2
  data : ∀ n, C n → C' n
  fresh : ∀ n, C' n → C n ∨ w.cells.length ≤ n

theorem Further.changes {C' : Nat → Prop} (h : w.Further v p p' D' C C') : p'.changes = p.changes := by
  rw [h.place]
  rfl

theorem Further.trans {C' C'' : Nat → Prop} {p'' : Draft} {D'' : Definition Stored}
    (h : w.Further v p p' D' C C') (h' : v.Further u p' p'' D'' C' C'') :
    w.Further u p p'' D'' C C'' where
  declares := h'.declares
  later := h.later.trans h'.later fun n hn _ => h.changes ▸ hn
  place := by
    rw [h'.place, h.place]
  specs s hs := (h'.specs s hs).elim (h.specs s) fun hle =>
    .inr (Nat.le_trans h.later.cells_le hle)
  data n hn := h'.data n (h.data n hn)
  fresh n hn := (h'.fresh n hn).elim (h.fresh n) fun hle =>
    .inr (Nat.le_trans h.later.cells_le hle)

theorem Gains.further (hg : w.Gains C v) (h : w.Declares p D C) :
    w.Further v p p D C (w.gained C v) :=
  ⟨hg.declares h, hg.later.mono fun _ => False.elim, rfl, fun _ => .inl, (hg.below h.data).cell,
    fun _ => And.left⟩

theorem Declares.unchanged (h : w.Declares p D C) (hl : w.Later v fun _ => False) :
    w.Further v p p D C C :=
  ⟨h.later hl (hl.drafts h.toDrafts fun _ _ => id) (fun _ _ => id) (fun _ => .inl) (fun _ => .inl),
    hl.mono fun _ => False.elim, rfl, fun _ => .inl, fun _ => id, fun _ => .inl⟩

theorem Declares.putOwn (D' : Definition Stored) (h : w.Declares p D C) (hp : D'.params = D.params)
    (hi : D'.instanceHelpers = D.instanceHelpers) (hc : D'.classHelpers = D.classHelpers)
    (hb : ∀ s, D'.block = some s → w.RunsOn s.handle s.block)
    (hx : ∀ x ∈ D'.values, x ∈ D.values ∨ x.Within (w.data C) ∧ x.IsShared) :
    w.Further (w.put p.own (.ofRows (D'.fields p))) p p D' C C := by
  have hl : w.Later (w.put p.own (.ofRows (D'.fields p))) (· = p.own) :=
    (Later.refl w (· = p.own)).put (.inl rfl) _
  have hne := h.cells
  simp only [Draft.cells, List.nodup_cons, List.mem_cons, List.mem_map, not_or] at hne
  have drafts : (w.put p.own (.ofRows (D'.fields p))).Drafts p D' :=
    { object := ⟨h.object.object, List.getElem?_set_self (h.lt (by simp [Draft.cells]))⟩
      params := hl.cells _ _ (by grind) h.params
      specs := hp ▸ hl.specs h.specs (by grind)
      table := hl.objectAt h.table (by grind)
      ofInstance := hi ▸ hl.cells _ _ (by grind) h.ofInstance
      ofClass := hc ▸ hl.cells _ _ (by grind) h.ofClass
      cells := h.cells
      block := hb
      instanceBodies := hi ▸ h.instanceBodies
      classBodies := hc ▸ h.classBodies
      instanceNames := hi ▸ h.instanceNames
      classNames := hc ▸ h.classNames }
  refine ⟨h.later hl drafts ?_ (fun n hn => .inl hn) hx, hl.mono fun n hn => .inl hn, rfl,
    fun _ => .inl, fun _ => id, fun _ => .inl⟩
  rintro n hn rfl
  exact h.apart _ (by simp [Draft.cells]) hn

theorem Declares.putParams (h : w.Declares p D C) (params : List ParamSpec)
    (specs : List (Nat × Nat)) {cells : List Value} {objects : List HostObject}
    (hcells : w.cells <+: cells) (hobjects : w.objects <+: objects)
    (hspecs : List.Forall₂ (fun s spec => World.ObjectAt { w with cells, objects } s.1
      Shape.paramSpec.cls s.2 (ParamSpec.fields spec)) specs params)
    (hnew : ∀ s ∈ specs, s ∈ p.specs ∨ w.cells.length ≤ s.2) (hd : (specs.map (·.2)).Nodup)
    (hx : ∀ x ∈ params.flatMap ParamSpec.values,
      x ∈ D.params.flatMap ParamSpec.values ∨ x.Within (w.data C) ∧ x.IsShared) :
    w.Further
      (World.put { w with cells, objects } p.params (.list (specs.map fun s => objectValue s.1)))
      p { p with specs } { D with params } C C := by
  have hne := h.cells
  have hlt {n : Nat} (hn : n ∈ p.cells) := h.lt hn
  simp only [Draft.cells, List.nodup_cons, List.mem_cons, List.mem_map, not_or] at hne hlt
  have hold : w.Later { w with cells, objects } (fun _ => False) :=
    { rest := rfl
      classes := List.prefix_rfl
      objects := hobjects
      handles := List.prefix_rfl
      cells := fun _ _ _ hx => getElem?_of_extended hcells hx
      cells_le := hcells.length_le
      marks_le := Nat.le_refl _ }
  have hput : World.Later { w with cells, objects } (World.put { w with cells, objects } p.params
      (.list (specs.map fun s => objectValue s.1))) (· = p.params) :=
    (Later.refl _ (· = p.params)).put (.inl rfl) _
  have hl : w.Later (World.put { w with cells, objects } p.params
      (.list (specs.map fun s => objectValue s.1))) (· = p.params) :=
    (hold.mono fun _ => False.elim).trans hput fun _ hn _ => hn
  have hparams : p.params < w.cells.length := hlt (by simp)
  have drafts : (World.put { w with cells, objects } p.params
      (.list (specs.map fun s => objectValue s.1))).Drafts { p with specs } { D with params } :=
    { object := hl.objectAt h.object (by grind)
      params := List.getElem?_set_self (Nat.lt_of_lt_of_le hparams hcells.length_le)
      specs := hput.specs hspecs fun s hs he => by
        rcases hnew s hs with hm | hle
        · grind
        · omega
      table := hl.objectAt h.table (by grind)
      ofInstance := hl.cells _ _ (by grind) h.ofInstance
      ofClass := hl.cells _ _ (by grind) h.ofClass
      cells := by
        simp only [Draft.cells, List.nodup_cons, List.mem_cons, List.mem_map, not_or]
        have below : p.own < w.cells.length ∧ p.ofInstance < w.cells.length ∧
            p.ofClass < w.cells.length ∧ p.tableOwn < w.cells.length :=
          ⟨hlt (by simp), hlt (by simp), hlt (by simp), hlt (by simp)⟩
        grind
      block := h.block
      instanceBodies := h.instanceBodies
      classBodies := h.classBodies
      instanceNames := h.instanceNames
      classNames := h.classNames }
  refine ⟨h.later hl drafts ?_ ?_ ?_, hl.mono fun n hn => .inr (.inl hn), rfl, hnew, fun _ => id,
    fun _ => .inl⟩
  · rintro n hn rfl
    exact h.apart _ (by simp [Draft.cells]) hn
  · intro n hn
    simp only [Draft.cells, List.mem_cons, List.mem_map] at hn ⊢
    grind
  · intro x hm
    simp only [Definition.values, List.mem_cons] at hm ⊢
    grind

theorem Declares.putInstance (h : w.Declares p D C) (name : String) {s : Stored}
    (hs : w.RunsOn s.handle s.block) :
    w.Further (w.put p.ofInstance (.ofRows (helperRows (Table.insert name s D.instanceHelpers))))
      p p (D.help .ofInstance name s) C C := by
  have hne := h.cells
  simp only [Draft.cells, List.nodup_cons, List.mem_cons, List.mem_map, not_or] at hne
  have hl : w.Later (w.put p.ofInstance (.ofRows (helperRows
      (Table.insert name s D.instanceHelpers)))) (· = p.ofInstance) :=
    (Later.refl w (· = p.ofInstance)).put (.inl rfl) _
  have drafts : (w.put p.ofInstance (.ofRows (helperRows (Table.insert name s
      D.instanceHelpers)))).Drafts p (D.help .ofInstance name s) :=
    { object := hl.objectAt h.object (by grind)
      params := hl.cells _ _ (by grind) h.params
      specs := hl.specs h.specs (by grind)
      table := hl.objectAt h.table (by grind)
      ofInstance := List.getElem?_set_self (h.lt (by simp [Draft.cells]))
      ofClass := hl.cells _ _ (by grind) h.ofClass
      cells := h.cells
      block := h.block
      instanceBodies := fun row hr =>
        (Table.mem_insert hr).elim (h.instanceBodies row) fun he => by cases he; exact hs
      classBodies := h.classBodies
      instanceNames := Table.nodup_keys_insert h.instanceNames name s
      classNames := h.classNames }
  refine ⟨h.later hl drafts ?_ (fun n hn => .inl hn) (fun _ => .inl),
    hl.mono fun n hn => .inr (.inr (.inl hn)), rfl, fun _ => .inl, fun _ => id, fun _ => .inl⟩
  rintro n hn rfl
  exact h.apart _ (by simp [Draft.cells]) hn

theorem Declares.putClass (h : w.Declares p D C) (name : String) {s : Stored}
    (hs : w.RunsAlone s.handle s.block) :
    w.Further (w.put p.ofClass (.ofRows (helperRows (Table.insert name s D.classHelpers))))
      p p (D.help .ofClass name s) C C := by
  have hne := h.cells
  simp only [Draft.cells, List.nodup_cons, List.mem_cons, List.mem_map, not_or] at hne
  have hl : w.Later (w.put p.ofClass (.ofRows (helperRows
      (Table.insert name s D.classHelpers)))) (· = p.ofClass) :=
    (Later.refl w (· = p.ofClass)).put (.inl rfl) _
  have drafts : (w.put p.ofClass (.ofRows (helperRows (Table.insert name s
      D.classHelpers)))).Drafts p (D.help .ofClass name s) :=
    { object := hl.objectAt h.object (by grind)
      params := hl.cells _ _ (by grind) h.params
      specs := hl.specs h.specs (by grind)
      table := hl.objectAt h.table (by grind)
      ofInstance := hl.cells _ _ (by grind) h.ofInstance
      ofClass := List.getElem?_set_self (h.lt (by simp [Draft.cells]))
      cells := h.cells
      block := h.block
      instanceBodies := h.instanceBodies
      classBodies := fun row hr =>
        (Table.mem_insert hr).elim (h.classBodies row) fun he => by cases he; exact hs
      instanceNames := h.instanceNames
      classNames := Table.nodup_keys_insert h.classNames name s }
  refine ⟨h.later hl drafts ?_ (fun n hn => .inl hn) (fun _ => .inl),
    hl.mono fun n hn => .inr (.inr (.inr hn)), rfl, fun _ => .inl, fun _ => id, fun _ => .inl⟩
  rintro n hn rfl
  exact h.apart _ (by simp [Draft.cells]) hn

end World

/-! ## Steps -/

/-- The warnings among records. -/
def warnings (log : List Record) : List Record := log.filter (·.level = 30)

/-- What a step on a definition leaves: what was declared if it succeeds, else nothing new. Nothing
but a parameter is declared with a warning. -/
inductive World.Develops (w : World) (p : Draft) (D : Definition Stored) (C : Nat → Prop)
    (op : Builder) : Except Fault Value × World → Prop
  | done {a : Value} {v : World} {p' : Draft} {D' : Definition Stored} {C' : Nat → Prop}
    (hn : D.Next op D') (hf : w.Further v p p' D' C C')
    (hw : op.draft? = none → warnings v.log = warnings w.log) : Develops w p D C op (.ok a, v)
  | failed {f : Fault} {v : World} {C' : Nat → Prop} (hr : ∀ scope name, op.helper? scope name = none)
    (hf : w.Further v p p D C C') (hw : op.draft? = none → warnings v.log = warnings w.log) :
    Develops w p D C op (.error f, v)

theorem Definition.describe_of_ne {x : Value} (hx : x ≠ .null) (D : Definition Stored) :
    D.describe x = { D with description := x } := by
  cases x <;> first | exact absurd rfl hx | rfl

theorem World.Develops.after {w v : World} {p : Draft} {D : Definition Stored} {C C' : Nat → Prop}
    {op : Builder} {x : Except Fault Value × World} (h : v.Develops p D C' op x)
    (hf : w.Further v p p D C C') (hl : v.log = w.log) : w.Develops p D C op x := by
  cases h with
  | done hn hg hw => exact .done hn (hf.trans hg) fun ho => hl ▸ hw ho
  | failed hr hg hw => exact .failed hr (hf.trans hg) fun ho => hl ▸ hw ho

theorem World.Develops.thenReturn {w v : World} {p : Draft} {D : Definition Stored} {C : Nat → Prop}
    {op : Builder} {r : Run Value} (h : w.Develops p D C op (r.exec v)) (a : Value) :
    w.Develops p D C op (Run.exec (do
      let _ ← r
      return a) v) := by
  rw [Run.exec_bind]
  generalize r.exec v = x at h
  cases h with
  | done hn hg hw => exact .done hn hg hw
  | failed hr hg hw => exact .failed hr hg hw

def World.repetition (w : World) (tool name : Value) : Except Fault String := do
  let tool ← w.printedOf tool
  return "Tool " ++ tool ++ ": parameter " ++ (← w.printedOf name) ++ " declared more than once"

/-- What is noted before a parameter is declared: a warning if its name was declared before. -/
def World.noticed (w : World) (D : Definition Stored) (name : Value) :
    Except Fault (List Record) :=
  if (D.params.any fun spec => w.sameValues spec.name name) = true ∧ w.logFrom ≤ 30 then
    (w.repetition D.name name).map fun text => [⟨Machine.definitionLogger, 30, text⟩]
  else .ok []

namespace Machine

variable {w : World} {p : Draft} {D : Definition Stored} {C : Nat → Prop}

theorem describe_of_ne {x : Value} (hx : x ≠ .null) (m : Machine) (self : Value) :
    m.describe self x = (do
      m.assign self "_description" x
      return .null) := by
  cases x <;> first | exact absurd rfl hx | rfl

theorem exec_describe (k : Nat) (h : w.Declares p D C) {x : Value} (hx : x.Within (w.data C))
    (hs : x.IsShared) : ∃ a v, ((nested (k + 1)).send p.value "description" [x] []).exec w =
      (.ok a, v) ∧ w.Further v p p (D.describe x) C C ∧ v.log = w.log := by
  have sent : ((nested (k + 1)).send p.value "description" [x] []).exec w =
      ((nested k).describe p.value x).exec w := by
    rw [exec_sendDefinition k .describe h.toDrafts h.bundled rfl rfl]
    rfl
  rw [sent]
  by_cases hnull : x = .null
  · subst hnull
    refine ⟨D.description, w, ?_, h.unchanged (World.Later.refl w _), rfl⟩
    exact exec_askOwn (nested k) h.toDrafts h.bundled (by decide) rfl
  · refine ⟨.null, _, ?_, h.putOwn (D.describe x) ?_ ?_ ?_ ?_ ?_, rfl⟩
    · rw [describe_of_ne hnull, Run.exec_bind, exec_assignOwn _ h.toDrafts h.bundled (by decide),
        Definition.describe_of_ne hnull]
      rfl
    all_goals rw [Definition.describe_of_ne hnull]
    · exact h.block
    · intro y hy
      simp only [Definition.values, List.mem_cons] at hy ⊢
      rcases hy with rfl | rfl | hy
      · exact .inl (.inl rfl)
      · exact .inr ⟨hx, hs⟩
      · exact .inl (.inr (.inr hy))

/-! ### Parameters -/

theorem exec_equals (m : Machine) (hd : w.HoldsData C) {x y : Value} (hx : x.Within (w.data C))
    (hy : y.Within (w.data C)) : (m.equals x y).exec w = (.ok (w.sameValues x y), w) := by
  unfold equals consult
  simp only [bind_assoc]
  rw [Run.exec_bind, Run.exec_world]
  dsimp only
  rw [hd.special? hx, hd.special? hy]
  simp only [Option.map_none, Option.toList_none, List.append_nil, ite_self]
  rfl

theorem exec_declares (m : Machine) (h : w.Declares p D C) {x : Value} (hx : x.Within (w.data C)) :
    (m.declares p.value x).exec w = (.ok (D.params.any fun spec => w.sameValues spec.name x), w) := by
  have found : ∀ (specs : List (Nat × Nat)) (params : List ParamSpec),
      List.Forall₂ (fun s spec => w.ObjectAt s.1 Shape.paramSpec.cls s.2 (ParamSpec.fields spec))
        specs params → (∀ spec ∈ params, spec.name.Within (w.data C)) →
      ((specs.map fun (s : Nat × Nat) => objectValue s.1).anyM fun param => do
        m.equals (← m.ask param "name") x).exec w =
          (.ok (params.any fun spec => w.sameValues spec.name x), w) := by
    intro specs params hs hw
    induction hs with
    | nil => rfl
    | @cons s spec specs params hspec hs ih =>
      rw [List.map_cons, List.anyM, Run.exec_bind, Run.exec_bind,
        exec_askSpec m h.bundled hspec
          (show Session.start.isPlain (.made 5) "name" = true by decide) rfl]
      dsimp only
      rw [exec_equals m h.data (hw spec List.mem_cons_self) hx]
      dsimp only
      rw [List.any_cons]
      cases w.sameValues spec.name x with
      | true => rfl
      | false =>
        rw [Bool.false_or]
        exact ih fun spec hm => hw spec (List.mem_cons_of_mem _ hm)
  have hw : ∀ spec ∈ D.params, spec.name.Within (w.data C) := by
    intro spec hm
    refine (h.values _ ?_).1
    simp only [Definition.values, List.mem_cons, List.mem_flatMap]
    exact .inr (.inr ⟨spec, hm, List.mem_cons_self⟩)
  unfold declares
  rw [Run.exec_bind, exec_askOwn m h.toDrafts h.bundled
    (show Session.start.isPlain (.made definitionClass) "_params" = true by decide) rfl]
  dsimp only
  rw [Run.exec_bind, exec_iterate m h.params]
  exact found p.specs D.params h.specs hw

theorem exec_noteWorded (logger : String) (level : Int) {message : Run String} {r : Except Fault String}
    (h : message.exec w = (r, w)) : (Run.note logger level message).exec w =
      if w.logFrom ≤ level then
        (r.map fun _ => (), { w with log := w.log ++ r.toOption.toList.map (⟨logger, level, ·⟩) })
      else (.ok (), w) := by
  unfold Run.note
  rw [Run.exec_bind, Run.exec_world]
  dsimp only
  split
  · rw [Run.exec_bind, h]
    cases r with
    | error f =>
      dsimp only [Except.toOption, Option.toList, List.map]
      rw [List.append_nil]
      rfl
    | ok text => rfl
  · rfl

theorem exec_noteMessage (logger : String) (level : Int) {message : Run String}
    {r : Except Fault String} (h : message.exec w = (r, w)) :
    (∃ f, (Run.note logger level message).exec w = (.error f, w)) ∨
      ∃ log, (Run.note logger level message).exec w = (.ok (), { w with log }) ∧
        (level ≠ 30 → warnings log = warnings w.log) := by
  rw [exec_noteWorded logger level h]
  split
  · cases r with
    | error f =>
      refine .inl ⟨f, ?_⟩
      dsimp only [Except.toOption, Option.toList, List.map]
      rw [List.append_nil]
      rfl
    | ok text =>
      refine .inr ⟨_, rfl, fun hlevel => ?_⟩
      have hnone : warnings [⟨logger, level, text⟩] = [] := by
        rw [warnings, List.filter_singleton, decide_eq_false hlevel]
        rfl
      exact (List.filter_append ..).trans ((congrArg _ hnone).trans (List.append_nil _))
  · exact .inr ⟨w.log, rfl, fun _ => rfl⟩

theorem exec_repetition (m : Machine) (hd : w.HoldsData C) {x y : Value} (hx : x.Within (w.data C))
    (hy : y.Within (w.data C)) : Run.exec (do
      let tool ← m.printed x
      return "Tool " ++ tool ++ ": parameter " ++ (← m.printed y) ++ " declared more than once") w =
        (w.repetition x y, w) := by
  unfold World.repetition
  rw [Run.exec_bind, exec_printed m hd hx]
  cases w.printedOf x with
  | error f => rfl
  | ok tool =>
    dsimp only
    rw [Run.exec_bind, exec_printed m hd hy]
    cases w.printedOf y <;> rfl

theorem exec_appendParam (k : Nat) (h : w.Declares p D C) {spec : ParamSpec}
    (hx : ∀ x ∈ spec.values, x.Within (w.data C) ∧ x.IsShared) :
    ∃ a v p', Run.exec (do
      let param ← (nested (k + 2)).invoke (World.recordClass .paramSpec) [] spec.fields
      let params ← (nested (k + 2)).ask p.value "_params"
      let _ ← (nested (k + 2)).send params "append" [param] []
      return param) w = (.ok a, v) ∧ w.Further v p p' (D.declare spec) C C ∧ v.log = w.log := by
  let v := w.withObjectOf Shape.paramSpec.cls spec.fields
  have hl : w.Later v (fun _ => False) := (World.Later.refl w _).withObjectOf _ _
  have hv := hl.drafts h.toDrafts fun _ _ => id
  have hb := hl.bundled h.bundled
  refine ⟨objectValue w.objects.length,
    v.put p.params (.list ((p.specs ++ [(w.objects.length, w.cells.length)]).map fun s =>
      objectValue s.1)), { p with specs := p.specs ++ [(w.objects.length, w.cells.length)] }, ?_, ?_,
    rfl⟩
  · have made := exec_makeRecord k .paramSpec (by decide) h.bundled
      (show spec.values.length = _ from rfl) fun x hm => (hx x hm).2
    rw [Run.exec_bind, show spec.fields = Shape.paramSpec.fields.zip spec.values from rfl, made]
    show Run.exec _ v = _
    rw [Run.exec_bind, exec_askOwn _ hv hb
      (show Session.start.isPlain (.made definitionClass) "_params" = true by decide) rfl]
    dsimp only
    rw [Run.exec_bind, exec_append (k + 1) hv.params (hb.places _), List.map_append]
    rfl
  · apply h.putParams (D.params ++ [spec]) (p.specs ++ [(w.objects.length, w.cells.length)])
      (List.prefix_append _ [_]) (List.prefix_append _ [_])
    · refine List.rel_append (hl.specs h.specs fun _ _ => id) (.cons ?_ .nil)
      exact World.objectAt_withObjectOf w _ _
    · intro s hs
      rcases List.mem_append.mp hs with hm | hm
      · exact .inl hm
      · rw [List.mem_singleton.mp hm]
        exact .inr (Nat.le_refl _)
    · have hd := h.cells
      simp only [Draft.cells, List.nodup_cons] at hd
      rw [List.map_append, List.nodup_append]
      refine ⟨hd.2.2.2.2.2, by simp, ?_⟩
      rintro a ha b hb rfl
      have hlt := h.lt (n := a) (by simp only [Draft.cells]; grind)
      simp only [List.map_cons, List.map_nil, List.mem_singleton] at hb
      omega
    · intro x hm
      rw [List.flatMap_append, List.mem_append] at hm
      rcases hm with hm | hm
      · exact .inl hm
      · simp only [List.flatMap_cons, List.flatMap_nil, List.append_nil] at hm
        exact .inr (hx x hm)

/-- A parameter is declared, once a repetition of its name was warned about. Where the warning cannot
be worded nothing is declared. -/
theorem exec_declareSpec (k : Nat) (h : w.Declares p D C) {spec : ParamSpec}
    (hx : ∀ x ∈ spec.values, x.Within (w.data C) ∧ x.IsShared) :
    (∃ f, w.noticed D spec.name = .error f ∧
      ((nested (k + 3)).send p.value "param" [] spec.fields).exec w = (.error f, w)) ∨
    ∃ notes a v p', w.noticed D spec.name = .ok notes ∧
      ((nested (k + 3)).send p.value "param" [] spec.fields).exec w = (.ok a, v) ∧
      w.Further v p p' (D.declare spec) C C ∧ v.log = w.log ++ notes := by
  have hname : D.name.Within (w.data C) := (h.values _ List.mem_cons_self).1
  have hspec : spec.name.Within (w.data C) := (hx _ List.mem_cons_self).1
  have sent : ((nested (k + 3)).send p.value "param" [] spec.fields).exec w =
      ((nested (k + 2)).declareParam p.value spec.name (spec.fields.drop 1)).exec w := by
    rw [exec_sendDefinition (k + 2) .declare h.toDrafts h.bundled rfl rfl]
    rfl
  have appended (log : List Record) : ∃ a v p', Run.exec (do
      let param ← (nested (k + 2)).invoke (World.recordClass .paramSpec) [] spec.fields
      let params ← (nested (k + 2)).ask p.value "_params"
      let _ ← (nested (k + 2)).send params "append" [param] []
      return param) { w with log } = (.ok a, v) ∧ w.Further v p p' (D.declare spec) C C ∧
        v.log = log := by
    have hlog := h.unchanged ((World.Later.refl w _).log log)
    obtain ⟨a, v, p', hrun, hf, hl⟩ := exec_appendParam k hlog.declares hx
    exact ⟨a, v, p', hrun, hlog.trans hf, hl⟩
  rw [sent]
  unfold declareParam World.noticed
  rw [Run.exec_bind, exec_declares _ h hspec]
  dsimp only
  by_cases hagain : (D.params.any fun s => w.sameValues s.name spec.name) = true
  · rw [if_pos hagain, Run.exec_bind, exec_askOwn _ h.toDrafts h.bundled
      (show Session.start.isPlain (.made definitionClass) "_name" = true by decide) rfl]
    dsimp only
    rw [Run.exec_bind, exec_noteWorded definitionLogger 30 (exec_repetition _ h.data hname hspec)]
    by_cases hlevel : w.logFrom ≤ 30
    · rw [if_pos hlevel, if_pos ⟨hagain, hlevel⟩]
      cases w.repetition D.name spec.name with
      | error f =>
        refine .inl ⟨f, rfl, ?_⟩
        dsimp only [Except.toOption, Option.toList, List.map, Except.map]
        rw [List.append_nil]
      | ok text =>
        obtain ⟨a, v, p', hrun, hf, hl⟩ := appended (w.log ++ [⟨definitionLogger, 30, text⟩])
        exact .inr ⟨_, a, v, p', rfl, hrun, hf, hl⟩
    · rw [if_neg hlevel, if_neg fun hc => hlevel hc.2]
      obtain ⟨a, v, p', hrun, hf, hl⟩ := appended w.log
      exact .inr ⟨_, a, v, p', rfl, hrun, hf, hl.trans (List.append_nil _).symm⟩
  · rw [if_neg hagain, if_neg fun hc => hagain hc.1]
    obtain ⟨a, v, p', hrun, hf, hl⟩ := appended w.log
    exact .inr ⟨_, a, v, p', rfl, hrun, hf, hl.trans (List.append_nil _).symm⟩

theorem exec_declare (k : Nat) (h : w.Declares p D C) {spec : ParamSpec}
    (hx : ∀ x ∈ spec.values, x.Within (w.data C) ∧ x.IsShared) (draft : ParamDraft) :
    w.Develops p D C (.param draft)
      (((nested (k + 3)).send p.value "param" [] spec.fields).exec w) := by
  rcases exec_declareSpec k h hx with ⟨f, -, hrun⟩ | ⟨notes, a, v, p', -, hrun, hf, -⟩
  · rw [hrun]
    exact .failed (fun _ _ => rfl) (h.unchanged (World.Later.refl w _)) nofun
  · rw [hrun]
    exact .done (.declare draft spec) hf nofun

/-! ### Blocks and helpers -/

theorem exec_newHandle (f : Function) (w : World) : (Run.newHandle f none).exec w =
    (.ok (routineValue w.handles.length), { w with handles := w.handles ++ [⟨f, none⟩] }) := rfl

theorem handle_new (f : Function) (w : World) :
    (w.handles ++ [Handle.mk f none])[w.handles.length]? = some ⟨f, none⟩ := by simp

theorem exec_store (k : Nat) (h : w.Declares p D C) {s : Stored} (hs : w.RunsOn s.handle s.block) :
    w.Develops p D C (.execute s.block)
      (((nested (k + 1)).send p.value "execute" [s.value] []).exec w) := by
  have hname : D.name.Within (w.data C) := (h.values _ List.mem_cons_self).1
  have sent : ((nested (k + 1)).send p.value "execute" [s.value] []).exec w =
      ((nested k).storeBlock p.value s.value).exec w := by
    rw [exec_sendDefinition k .store h.toDrafts h.bundled rfl rfl]
    rfl
  have stored (log : List Record) (hw : warnings log = warnings w.log) :
      w.Develops p D C (.execute s.block) (Run.exec (do
        (nested k).assign p.value "_execute_block" s.value
        return s.value) { w with log }) := by
    have hlog := h.unchanged ((World.Later.refl w _).log log)
    have hput := hlog.declares.putOwn (D.store s) rfl rfl rfl
      (by rintro _ ⟨⟩; exact hs) fun x hm => .inl hm
    rw [Run.exec_bind, exec_assignOwn _ hlog.declares.toDrafts hlog.declares.bundled (by decide)]
    exact .done (.store s) (hlog.trans hput) fun _ => hw
  rw [sent]
  unfold storeBlock
  rw [Run.exec_bind, exec_askOwn _ h.toDrafts h.bundled
    (show Session.start.isPlain (.made definitionClass) "_execute_block" = true by decide) rfl]
  cases D.block with
  | none => exact stored w.log rfl
  | some old =>
    show w.Develops p D C _ (Run.exec (do
      let tool ← (nested k).ask p.value "_name"
      let _ ← Run.note definitionLogger 10 (do
        return "Tool " ++ (← (nested k).printed tool) ++ ": execute block replaced")
      (nested k).assign p.value "_execute_block" s.value
      return s.value) w)
    rw [Run.exec_bind, exec_askOwn _ h.toDrafts h.bundled
      (show Session.start.isPlain (.made definitionClass) "_name" = true by decide) rfl]
    have hr : ∃ r, Run.exec (do
        return "Tool " ++ (← (nested k).printed D.name) ++ ": execute block replaced") w =
          (r, w) := by
      rw [Run.exec_bind, exec_printed _ h.data hname]
      cases w.printedOf D.name <;> exact ⟨_, rfl⟩
    obtain ⟨r, hr⟩ := hr
    dsimp only
    rw [Run.exec_bind]
    rcases exec_noteMessage definitionLogger 10 hr with ⟨f, hf⟩ | ⟨log, hlog, hw⟩
    · rw [hf]
      exact .failed (fun _ _ => rfl) (h.unchanged (World.Later.refl w _)) fun _ => rfl
    · rw [hlog]
      exact stored log (hw (by decide))

def registerName : Scope → String
  | .ofInstance => "helper"
  | .ofClass => "class_helper"

def runsIn (w : World) (scope : Scope) (s : Stored) : Prop :=
  match scope with
  | .ofInstance => w.RunsOn s.handle s.block
  | .ofClass => w.RunsAlone s.handle s.block

theorem exec_help (k : Nat) (h : w.Declares p D C) (scope : Scope) (name : String) {s : Stored}
    (hs : runsIn w scope s) : w.Develops p D C (.help scope name s.block)
      (((nested (k + 1)).send p.value (registerName scope) [.str name, s.value] []).exec w) := by
  have asked (field : String) (x : Value) (hp : Session.start.isPlain (.made 4) field = true)
      (hx : Table.find? [("instance", cellValue p.ofInstance),
        ("class_scope", cellValue p.ofClass)] field = some x) :
      ((nested k).ask (objectValue p.table) field).exec w = (.ok x, w) :=
    exec_askSet _ h.table h.bundled (by decide) (by decide) hp hx
  cases scope with
  | ofInstance =>
    have sent : ((nested (k + 1)).send p.value "helper" [.str name, s.value] []).exec w =
        ((nested k).registerHelper p.value .ofInstance (.str name) s.value).exec w := by
      rw [exec_sendDefinition k (.help .ofInstance) h.toDrafts h.bundled rfl rfl]
      rfl
    have put := h.putInstance name hs
    rw [helperRows_insert] at put
    show w.Develops p D C _
      (((nested (k + 1)).send p.value "helper" [.str name, s.value] []).exec w)
    rw [sent]
    show w.Develops p D C _ (Run.exec (do
      let helpers ← (nested k).ask p.value "_helper_methods"
      (nested k).setItem (← (nested k).ask helpers "instance") (.str name) s.value
      return s.value) w)
    rw [Run.exec_bind, exec_askOwn _ h.toDrafts h.bundled
      (show Session.start.isPlain (.made definitionClass) "_helper_methods" = true by decide) rfl]
    dsimp only
    rw [Run.exec_bind, asked "instance" _ (by decide) rfl]
    dsimp only
    rw [Run.exec_bind, exec_setItem _ h.ofInstance, insertBy_str]
    exact .done (.help .ofInstance name s) put fun _ => rfl
  | ofClass =>
    have sent : ((nested (k + 1)).send p.value "class_helper" [.str name, s.value] []).exec w =
        ((nested k).registerHelper p.value .ofClass (.str name) s.value).exec w := by
      rw [exec_sendDefinition k (.help .ofClass) h.toDrafts h.bundled rfl rfl]
      rfl
    have put := h.putClass name hs
    rw [helperRows_insert] at put
    show w.Develops p D C _
      (((nested (k + 1)).send p.value "class_helper" [.str name, s.value] []).exec w)
    rw [sent]
    show w.Develops p D C _ (Run.exec (do
      let helpers ← (nested k).ask p.value "_helper_methods"
      (nested k).setItem (← (nested k).ask helpers "class_scope") (.str name) s.value
      return s.value) w)
    rw [Run.exec_bind, exec_askOwn _ h.toDrafts h.bundled
      (show Session.start.isPlain (.made definitionClass) "_helper_methods" = true by decide) rfl]
    dsimp only
    rw [Run.exec_bind, asked "class_scope" _ (by decide) rfl]
    dsimp only
    rw [Run.exec_bind, exec_setItem _ h.ofClass, insertBy_str]
    exact .done (.help .ofClass name s) put fun _ => rfl

theorem exec_dropParam (k : Nat) (h : w.Declares p D C) :
    w.Develops p D C .dropParam (Run.exec (do
      let _ ← (nested (k + 1)).send (← (nested (k + 1)).ask p.value "params") "pop" [] []
      return .null) w) := by
  rw [Run.exec_bind, exec_askParams _ h.toDrafts h.bundled]
  dsimp only
  rw [Run.exec_bind]
  have hparams := h.params
  rcases List.eq_nil_or_concat p.specs with hnil | ⟨specs, s, hspecs⟩
  · rw [hnil] at hparams
    rw [exec_popEmpty k hparams (h.bundled.places _)]
    exact .failed (fun _ _ => rfl) (h.unchanged (World.Later.refl w _)) fun _ => rfl
  · rw [List.concat_eq_append] at hspecs
    rw [hspecs, List.map_append] at hparams
    rw [exec_pop k hparams (h.bundled.places _)]
    have dropped := h.putParams D.params.dropLast specs (List.prefix_refl w.cells)
      (List.prefix_refl w.objects) ?_ ?_ ?_ ?_
    · exact .done .drop dropped fun _ => rfl
    · have := List.forall₂_take (p.specs.length - 1) h.specs
      rw [← List.dropLast_eq_take, hspecs, List.dropLast_concat] at this
      have hlen := h.specs.length_eq
      rw [hspecs] at hlen
      rw [List.dropLast_eq_take, ← hlen]
      exact this
    · intro t ht
      exact .inl (hspecs ▸ List.mem_append_left _ ht)
    · have hd := h.cells
      simp only [Draft.cells, List.nodup_cons, hspecs, List.map_append, List.nodup_append] at hd
      exact hd.2.2.2.2.2.1
    · intro x hm
      obtain ⟨spec, hspec, hx⟩ := List.mem_flatMap.mp hm
      exact .inl (List.mem_flatMap.mpr ⟨spec, List.dropLast_subset _ hspec, hx⟩)

/-- A step that declares something of a definition does what it says, or leaves the definition as it
was. -/
theorem exec_declaring (k : Nat) (h : w.Declares p D C) (id : String) (op : Builder) :
    w.Develops p D C op (((nested (k + 3)).definitionStep p.value (op.step id)).exec w) := by
  cases op with
  | describe text =>
    show w.Develops p D C _ (Run.exec (do
      let x ← Run.literal text
      (nested (k + 3)).send p.value "description" [x] []) w)
    have hg := h.data.gains (Q := Link.Renamed) (fun L e => Link.literal_agree text)
    rw [Run.exec_bind]
    cases hr : (Run.literal text).exec w with
    | mk result v =>
      rw [hr] at hg
      have hl : v.log = w.log := by
        have hl := Run.silent_literal text w
        rw [hr] at hl
        exact hl
      cases result with
      | error f => exact .failed (fun _ _ => rfl) (hg.further h) fun _ => hl ▸ rfl
      | ok x =>
        obtain ⟨hx, hs⟩ := h.data.literal hr
        obtain ⟨a, u, hrun, hf, hl'⟩ := exec_describe (k + 2) (hg.declares h) hx hs
        dsimp only
        rw [hrun]
        exact .done (.describe text x) ((hg.further h).trans hf) fun _ => hl'.trans hl ▸ rfl
  | param draft =>
    show w.Develops p D C _ (Run.exec (do
      let fields ← draftFields draft
      (nested (k + 3)).send p.value "param" [] fields) w)
    have hg := h.data.gains (Q := Link.RenamedNamed) (fun L e => Link.draftFields_agree draft)
    rw [Run.exec_bind]
    cases hr : (draftFields draft).exec w with
    | mk result v =>
      rw [hr] at hg
      have hl : v.log = w.log := by
        have hl := Run.silent_draftFields draft w
        rw [hr] at hl
        exact hl
      cases result with
      | error f => exact .failed (fun _ _ => rfl) (hg.further h) nofun
      | ok fields =>
        obtain ⟨spec, rfl, hx⟩ := h.data.draftFields hr
        exact (exec_declare k (hg.declares h) hx draft).after (hg.further h) hl
  | execute block =>
    show w.Develops p D C _ (Run.exec (do
      let function ← Run.newHandle (.body .ofInstance (.block block)) none
      let _ ← (nested (k + 3)).send p.value "execute" [function] []
      return .bool true) w)
    have hnew := h.unchanged ((World.Later.refl w _).newHandle ⟨.body .ofInstance (.block block), none⟩)
    have stored := exec_store (k + 2) hnew.declares (s := ⟨w.handles.length, block⟩)
      (handle_new _ w)
    rw [Run.exec_bind, exec_newHandle]
    exact (stored.after hnew rfl).thenReturn _
  | help scope name block =>
    show w.Develops p D C _ (Run.exec (do
      let function ← Run.newHandle (.body scope (.block block)) none
      let _ ← (nested (k + 3)).send p.value (registerName scope) [.str name, function] []
      return .bool true) w)
    have hnew := h.unchanged ((World.Later.refl w _).newHandle ⟨.body scope (.block block), none⟩)
    have hs : runsIn { w with handles := w.handles ++ [⟨.body scope (.block block), none⟩] } scope
        ⟨w.handles.length, block⟩ := by
      cases scope <;> exact handle_new _ w
    have helped := exec_help (k + 2) hnew.declares scope name hs
    rw [Run.exec_bind, exec_newHandle]
    exact (helped.after hnew rfl).thenReturn _
  | dropParam => exact exec_dropParam (k + 2) h

end Machine

end Toolwright
