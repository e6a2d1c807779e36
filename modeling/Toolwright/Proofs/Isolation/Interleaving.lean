import Toolwright.Proofs.Isolation.Peers

/-!
# Interleaved steps

A session makes objects of function-calling tools and calls them, in any order. Beside it stands,
for each of the objects, a session with the steps on that object alone. The outcomes of the steps on
an object are those that it has alone: what is set on the object is seen by its later steps, and by
no step on another object.
-/

namespace Toolwright

set_option autoImplicit false

def Step.object? : Step → Option String
  | .new id _ => some id
  | .callObject id _ _ _ => some id
  | _ => none

def Step.onto (τ : String → String) : Step → Step
  | .new id cls => .new id (τ cls)
  | .callClass cls name args named => .callClass (τ cls) name args named
  | .callHelperClass cls name args named => .callHelperClass (τ cls) name args named
  | step => step

theorem Step.onto_id (step : Step) : step.onto id = step := by
  cases step <;> rfl

namespace Session

def Executing (w v : World) (σ : Nat → Nat) (cls cls' : String) (c c' : Nat) : Prop :=
  Table.find? w.classIds cls = some (.made c) ∧ Table.find? v.classIds cls' = some (.made c') ∧
    ∃ d d' apart, w.ExecutesAlike v σ c c' d d' apart

def Unmoved (w v : World) (step step' : Step) : Prop :=
  ∀ b, v.Extends b → w.Ahead b id → b.classIds = v.classIds →
    (perform b step').1.outcome.map Answer.unmarked = (perform w step).1.outcome.map Answer.unmarked ∧
      b.Grown (perform b step').2

/-- The steps of two sessions that go side by side on classes of other names: both make objects of
classes that execute alike and call them, and else nothing changes. -/
inductive SideBySide (w v : World) (σ : Nat → Nat) (τ : String → String) (steps : List Step) :
    Step → Prop
  | new {i cls : String} {c c' : Nat} (h : Executing w v σ cls (τ cls) c c') :
    SideBySide w v σ τ steps (.new i cls)
  | called {i name : String} {args : List Literal} {named : Literal.Rows}
    (h : ∀ cls c c', .new i cls ∈ steps → Executing w v σ cls (τ cls) c c' →
      w.Callable v σ c c' name) :
    SideBySide w v σ τ steps (.callObject i name args named)
  | unmoved {step : Step} (ho : step.object? = none) (h : Unmoved w v step (step.onto τ)) :
    SideBySide w v σ τ steps step

section Invariant

variable (w v : World) (σ : Nat → Nat) (τ : String → String) (steps : List Step)

/-- How an object stands in the session with its own steps and in that with all of them: nothing has
its name yet, or both sessions have an object of it, and the two are tied. -/
inductive Standing (i : String) (a b : World) : Option (Peers × Tie) → Prop
  | unmade (ha : Table.find? a.objectIds i = none) (hb : Table.find? b.objectIds i = none) :
    Standing i a b none
  | made {t : Peers} {tie : Tie} {cls : String} (h : Tied w v σ t tie a b)
    (ha : Table.find? a.objectIds i = some (objectValue t.self))
    (hb : Table.find? b.objectIds i = some (objectValue t.self')) (hi : .new i cls ∈ steps)
    (hc : Executing w v σ cls (τ cls) t.cls t.cls') : Standing i a b (some (t, tie))

/-- The sessions with the steps on each of the objects beside the one with all steps: no object has
hold of what is set on another one. -/
structure Interleaved (a : String → World) (b : World) (peers : String → Option (Peers × Tie)) :
    Prop where
  left : ∀ i, w.Extends (a i)
  right : v.Extends b
  ahead : ∀ i, (a i).Ahead b id
  leftClasses : ∀ i, (a i).classIds = w.classIds
  rightClasses : b.classIds = v.classIds
  rightDefinitions : b.definitionIds = v.definitionIds
  stands : ∀ i, (∃ step ∈ steps, step.object? = some i) → Standing w v σ τ steps i (a i) b (peers i)
  apart : ∀ i j p q, i ≠ j → peers i = some p → peers j = some q → ¬ p.2.Owns (a i) q.1.store'

end Invariant

/-! ## What a step leaves of the objects -/

/-- What objects have hold of after a step they had hold of before it, or the step is one on them and
it is new. -/
structure Gains (fresh : Prop) (a b a' : World) (before after : Option (Peers × Tie)) : Prop where
  owned : ∀ p, after = some p → ∀ m, p.2.Owns a' m →
    (m < b.cells.length ∧ ∃ q, before = some q ∧ q.2.Owns a m) ∨ (fresh ∧ b.cells.length ≤ m)
  store : ∀ p, after = some p →
    (p.1.store' < b.cells.length ∧ ∃ q, before = some q ∧ p.1.store' = q.1.store') ∨
      (fresh ∧ b.cells.length ≤ p.1.store')

theorem Gains.none (fresh : Prop) (a b a' : World) (before : Option (Peers × Tie)) :
    Gains fresh a b a' before none :=
  ⟨fun _ h _ _ => (Option.some_ne_none _ h.symm).elim, fun _ h => (Option.some_ne_none _ h.symm).elim⟩

section Steps

variable {w v a b a' b' : World} {σ : Nat → Nat} {τ : String → String} {steps : List Step}
  {t : Peers} {tie : Tie} {changed : Nat → Prop} {i : String}

theorem Standing.stays {p : Option (Peers × Tie)} (h : Standing w v σ τ steps i a b p)
    (hv : v.Extends b') (ha : a.Extends a') (hb : b.Besides changed b')
    (hf : ∀ q, p = some q → q.2.ρ.Fits a' b' ∧ ∀ m, q.2.Owns a m → ¬ changed m)
    (hn : Table.find? a'.objectIds i = Table.find? a.objectIds i)
    (hn' : Table.find? b'.objectIds i = Table.find? b.objectIds i) (fresh : Prop) :
    ∃ q, Standing w v σ τ steps i a' b' q ∧ Gains fresh a b a' p q := by
  cases h with
  | unmade h h' =>
    exact ⟨none, .unmade (hn.trans h) (hn'.trans h'), Gains.none _ _ _ _ _⟩
  | @made t tie _ ht h h' hi hc =>
    obtain ⟨hfits, hfree⟩ := hf _ rfl
    obtain ⟨tie', ht', howns⟩ := ht.stays hv ha hb hfits hfree
    refine ⟨some (t, tie'), .made ht' (hn.trans h) (hn'.trans h') hi hc, ?_, ?_⟩
    · rintro _ ⟨⟩ m hm
      exact .inl ⟨ht.owns_lt (howns m hm), _, rfl, howns m hm⟩
    · rintro _ ⟨⟩
      exact .inl ⟨ht.store_lt, _, rfl, rfl⟩

theorem Interleaved.advance {a a' : String → World} {peers : String → Option (Peers × Tie)}
    (h : Interleaved w v σ τ steps a b peers) (key : Option String)
    (hother : ∀ j, key ≠ some j → a' j = a j) (hv : v.Extends b') (hb : b.Besides changed b')
    (hclasses : b'.classIds = b.classIds) (hdefinitions : b'.definitionIds = b.definitionIds)
    (hnames : ∀ j, key ≠ some j → Table.find? b'.objectIds j = Table.find? b.objectIds j)
    (hfree : ∀ j p, key ≠ some j → peers j = some p → ∀ m, p.2.Owns (a j) m → ¬ changed m)
    (hkey : ∀ i, key = some i → w.Extends (a' i) ∧ (a' i).Ahead b' id ∧
      (a' i).classIds = (a i).classIds ∧
      ∃ q, Standing w v σ τ steps i (a' i) b' q ∧ Gains True (a i) b (a' i) (peers i) q) :
    ∃ peers', Interleaved w v σ τ steps a' b' peers' := by
  have each (j : String) : ∃ q,
      ((∃ step ∈ steps, step.object? = some j) → Standing w v σ τ steps j (a' j) b' q) ∧
        Gains (key = some j) (a j) b (a' j) (peers j) q := by
    by_cases hj : key = some j
    · obtain ⟨-, -, -, q, hq, hg⟩ := hkey j hj
      exact ⟨q, fun _ => hq, by rwa [eq_true hj]⟩
    · by_cases hin : ∃ step ∈ steps, step.object? = some j
      · have hs := h.stands j hin
        have hfits (p : Peers × Tie) (hp : peers j = some p) : p.2.ρ.Fits (a j) b' := by
          rw [hp] at hs
          cases hs with
          | made ht => exact ht.fits.grow hb
        rw [hother j hj]
        obtain ⟨q, hq, hg⟩ := hs.stays hv (World.Extends.refl _) hb
          (fun p hp => ⟨hfits p hp, hfree j p hj hp⟩) rfl (hnames j hj) (key = some j)
        exact ⟨q, fun _ => hq, hg⟩
      · exact ⟨none, fun h => absurd h hin, Gains.none _ _ _ _ _⟩
  choose peers' hstands hgains using each
  refine ⟨peers', ?_, hv, ?_, ?_, hclasses.trans h.rightClasses,
    hdefinitions.trans h.rightDefinitions, hstands, ?_⟩
  · intro i
    by_cases hi : key = some i
    · exact (hkey i hi).1
    · rw [hother i hi]
      exact h.left i
  · intro i
    by_cases hi : key = some i
    · exact (hkey i hi).2.1
    · rw [hother i hi]
      exact (h.ahead i).besides hb
  · intro i
    by_cases hi : key = some i
    · exact (hkey i hi).2.2.1.trans (h.leftClasses i)
    · rw [hother i hi]
      exact h.leftClasses i
  · intro i j p q hij hp hq howns
    rcases (hgains i).owned p hp _ howns with ⟨hlt, p₀, hp₀, how⟩ | ⟨hi, hle⟩
    · rcases (hgains j).store q hq with ⟨-, q₀, hq₀, hs⟩ | ⟨-, hge⟩
      · exact h.apart i j p₀ q₀ hij hp₀ hq₀ (hs ▸ how)
      · exact absurd hlt (Nat.not_lt_of_le hge)
    · rcases (hgains j).store q hq with ⟨hlt, -⟩ | ⟨hj, -⟩
      · exact absurd hlt (Nat.not_lt_of_le hle)
      · exact hij (Option.some.inj (hi.symm.trans hj))

def stepAlone (step : Step) (a : String → World) (i : String) : World :=
  if step.object? = some i then (perform (a i) step).2 else a i

theorem perform_unnamed {w : World} (h : Table.find? w.objectIds i = none) (name : String)
    (args : List Literal) (named : Literal.Rows) :
    (perform w (.callObject i name args named)).1.outcome = .error (.unknownId i) ∧
      (perform w (.callObject i name args named)).2 = { w with log := [] } := by
  have found : (Run.objectById i).exec { w with log := [] } =
      (.error (.unknownId i), { w with log := [] }) := by
    unfold Run.objectById Run.resolveId
    rw [Run.exec_bind, Run.exec_world]
    dsimp only
    rw [h]
    rfl
  have step : (machine.step (.callObject i name args named)).exec { w with log := [] } =
      (.error (.unknownId i), { w with log := [] }) := by
    show Run.exec (do
      (Machine.nested 999).callAttribute (← Run.objectById i) name args named) _ = _
    rw [Run.exec_bind, found]
  exact ⟨congrArg (fun x => x.1.bind (Answer.ofValue x.2)) step, congrArg Prod.snd step⟩

variable {a : String → World} {peers : String → Option (Peers × Tie)}

theorem Interleaved.new (h : Interleaved w v σ τ steps a b peers) (hσ : World.Permutes σ w v)
    {cls : String} {c c' : Nat} (hin : .new i cls ∈ steps) (hc : Executing w v σ cls (τ cls) c c') :
    (perform b (.new i (τ cls))).1.outcome = (perform (a i) (.new i cls)).1.outcome ∧
      ∃ peers', Interleaved w v σ τ steps (stepAlone (.new i cls) a) (perform b (.new i (τ cls))).2
        peers' := by
  obtain ⟨hl, hr, d, d', apart, hs⟩ := hc
  obtain ⟨houtcome, hm⟩ := perform_new_alike hs (h.left i) h.right (hσ.ahead h.right (h.ahead i))
    (h.leftClasses i ▸ hl) (h.rightClasses ▸ hr) i
  refine ⟨houtcome.symm, ?_⟩
  have halone : stepAlone (.new i cls) a i = (perform (a i) (.new i cls)).2 := if_pos rfl
  generalize (perform b (.new i (τ cls))).2 = b' at hm ⊢
  refine h.advance (some i) ?_ (h.right.trans hm.right) (hm.right.besides fun _ => False)
    hm.rightNames.1 hm.rightNames.2.1 ?_ (fun _ _ _ _ _ _ => id) ?_
  · exact fun j hj => if_neg hj
  · exact fun j hj => hm.rightNames.2.2 j fun e => hj (congrArg some e.symm)
  · rintro _ ⟨⟩
    rw [halone]
    refine ⟨(h.left i).trans hm.left,
      (h.ahead i).grownAlike hm.grown hm.left.logFrom hm.right.logFrom, hm.leftNames.1, ?_⟩
    rcases hm.named with ⟨hn, hn'⟩ | ⟨t, tie, rfl, rfl, ht, hn, hn', howns⟩
    · have hs := h.stands i ⟨_, hin, rfl⟩
      refine hs.stays (h.right.trans hm.right) hm.left (hm.right.besides fun _ => False)
        (fun p hp => ⟨?_, fun _ _ => id⟩) (congrArg (fun n : World.Names => Table.find? n.objects i) hn)
        (congrArg (fun n : World.Names => Table.find? n.objects i) hn') True
      rw [hp] at hs
      cases hs with
      | made ht => exact ht.fits.grownAlike ht.linked.shiftsUp hm.grown
    · have found {w w' : World} {o : Nat} (h : w'.names = w.namesWith i o) :
          Table.find? w'.objectIds i = some (objectValue o) := by
        rw [show w'.objectIds = Table.insert i (objectValue o) w.objectIds from
          congrArg World.Names.objects h, Table.find?_insert, if_pos rfl]
      refine ⟨some (t, tie), .made ht (found hn) (found hn') hin ⟨hl, hr, d, d', apart, hs⟩, ?_, ?_⟩
      · rintro _ ⟨⟩ m hm
        exact .inr ⟨trivial, howns m hm⟩
      · rintro _ ⟨⟩
        exact .inr ⟨trivial, howns _ ⟨t.store, ht.linked.sound.cell_store, ht.stored, ht.store⟩⟩

theorem Interleaved.called (h : Interleaved w v σ τ steps a b peers) {name : String}
    {args : List Literal} {named : Literal.Rows} (hin : .callObject i name args named ∈ steps)
    (hc : ∀ cls c c', .new i cls ∈ steps → Executing w v σ cls (τ cls) c c' →
      w.Callable v σ c c' name) :
    (perform b (.callObject i name args named)).1.outcome.map Answer.unmarked =
        (perform (a i) (.callObject i name args named)).1.outcome.map Answer.unmarked ∧
      ∃ peers', Interleaved w v σ τ steps (stepAlone (.callObject i name args named) a)
        (perform b (.callObject i name args named)).2 peers' := by
  have halone : stepAlone (.callObject i name args named) a i =
      (perform (a i) (.callObject i name args named)).2 := if_pos rfl
  have hother (j : String) (hj : some i ≠ some j) :
      stepAlone (.callObject i name args named) a j = a j := if_neg hj
  have hs := h.stands i ⟨_, hin, rfl⟩
  generalize hp : peers i = p at hs
  cases hs with
  | unmade ha hb =>
    obtain ⟨houtcome, ha'⟩ := perform_unnamed ha name args named
    obtain ⟨houtcome', hb'⟩ := perform_unnamed hb name args named
    refine ⟨by rw [houtcome, houtcome'], ?_⟩
    rw [hb']
    have hright : b.Extends { b with log := [] } := { World.Extends.refl b with }
    refine h.advance (some i) hother (h.right.trans hright) (hright.besides fun _ => False) rfl rfl
      (fun _ _ => rfl) (fun _ _ _ _ _ _ => id) ?_
    rintro _ ⟨⟩
    rw [halone, ha']
    exact ⟨{ h.left i with }, { h.ahead i with }, rfl, none, .unmade ha hb, Gains.none _ _ _ _ _⟩
  | @made t tie cls ht ha hb hi he =>
    obtain ⟨houtcome, hm⟩ := perform_callObject ht (hc cls _ _ hi he) ha hb args named
    refine ⟨houtcome.symm, ?_⟩
    generalize (perform b (.callObject i name args named)).2 = b' at hm ⊢
    obtain ⟨tie', ht', howns⟩ := hm.tied
    refine h.advance (some i) hother ht'.right hm.right (congrArg World.Names.classes hm.names.2)
      (congrArg World.Names.definitions hm.names.2)
      (fun j _ => congrArg (fun n : World.Names => Table.find? n.objects j) hm.names.2) ?_ ?_
    · rintro j q hj hq m hm' rfl
      exact h.apart j i q _ (fun e => hj (congrArg some e.symm)) hq hp hm'
    · rintro _ ⟨⟩
      rw [halone]
      refine ⟨ht'.left, (h.ahead i).grownAlike hm.grown hm.left.logFrom hm.right.logFrom,
        congrArg World.Names.classes hm.names.1, some (t, tie'), .made ht' ?_ ?_ hi he, ?_, ?_⟩
      · exact (congrArg (fun n : World.Names => Table.find? n.objects i) hm.names.1).trans ha
      · exact (congrArg (fun n : World.Names => Table.find? n.objects i) hm.names.2).trans hb
      · rintro _ ⟨⟩ m hm'
        rcases howns m hm' with hold | hnew
        · exact .inl ⟨ht.owns_lt hold, _, hp, hold⟩
        · exact .inr ⟨trivial, hnew⟩
      · rintro _ ⟨⟩
        exact .inl ⟨ht.store_lt, _, hp, rfl⟩

theorem Interleaved.unmoved (h : Interleaved w v σ τ steps a b peers) {step : Step}
    (ho : step.object? = none) (hu : Unmoved w v step (step.onto τ)) (haw : w.Ahead b id) :
    (perform b (step.onto τ)).1.outcome.map Answer.unmarked =
        (perform w step).1.outcome.map Answer.unmarked ∧
      ∃ peers', Interleaved w v σ τ steps (stepAlone step a) (perform b (step.onto τ)).2 peers' := by
  obtain ⟨houtcome, hgrown⟩ := hu b h.right haw h.rightClasses
  refine ⟨houtcome, ?_⟩
  have hnames := congrArg World.names hgrown.rest
  refine h.advance none (fun j _ => if_neg (by rw [ho]; exact nofun)) (h.right.trans hgrown.holds)
    (hgrown.holds.besides fun _ => False) hgrown.classIds (congrArg World.Names.definitions hnames)
    (fun j _ => congrArg (fun n : World.Names => Table.find? n.objects j) hnames)
    (fun _ _ _ _ _ _ => id) nofun

theorem Interleaved.step (h : Interleaved w v σ τ steps a b peers) (hσ : World.Permutes σ w v)
    {step : Step} (hin : step ∈ steps) (hs : SideBySide w v σ τ steps step) :
    (∀ i, step.object? = some i →
        (perform b (step.onto τ)).1.outcome.map Answer.unmarked =
          (perform (a i) step).1.outcome.map Answer.unmarked) ∧
      (step.object? = none →
        (perform b (step.onto τ)).1.outcome.map Answer.unmarked =
          (perform w step).1.outcome.map Answer.unmarked) ∧
      ∃ peers', Interleaved w v σ τ steps (stepAlone step a) (perform b (step.onto τ)).2 peers' := by
  cases hs with
  | new hc =>
    obtain ⟨houtcome, hnext⟩ := h.new hσ hin hc
    refine ⟨fun j hj => ?_, nofun, hnext⟩
    cases hj
    exact congrArg (Except.map Answer.unmarked) houtcome
  | called hc =>
    obtain ⟨houtcome, hnext⟩ := h.called hin hc
    refine ⟨fun j hj => ?_, nofun, hnext⟩
    cases hj
    exact houtcome
  | unmoved ho hu =>
    obtain ⟨houtcome, hnext⟩ := h.unmoved ho hu ((h.left "").ahead (h.ahead ""))
    refine ⟨fun j hj => ?_, fun _ => houtcome, hnext⟩
    rw [ho] at hj
    cases hj

end Steps

/-! ## Whole sessions -/

/-- The outcomes of the steps on an object, or on none, but for the marks of what is no number. -/
def outcomesOf (object : Option String) (steps : List Step) (replies : List Reply) :
    List (Except Fault Answer) :=
  ((steps.zip replies).filter fun row => row.1.object? = object).map fun row =>
    row.2.outcome.map Answer.unmarked

def outcomes (w : World) (steps : List Step) : List (Except Fault Answer) :=
  (performAll w steps).1.map fun reply => reply.outcome.map Answer.unmarked

theorem outcomes_cons (w : World) (step : Step) (steps : List Step) :
    outcomes w (step :: steps) =
      (perform w step).1.outcome.map Answer.unmarked :: outcomes (perform w step).2 steps := rfl

theorem performAll_cons (w : World) (step : Step) (steps : List Step) :
    (performAll w (step :: steps)).1 =
      (perform w step).1 :: (performAll (perform w step).2 steps).1 := rfl

theorem outcomesOf_cons (object : Option String) (step : Step) (steps : List Step) (reply : Reply)
    (replies : List Reply) :
    outcomesOf object (step :: steps) (reply :: replies) =
      if step.object? = object then
        reply.outcome.map Answer.unmarked :: outcomesOf object steps replies
      else outcomesOf object steps replies := by
  unfold outcomesOf
  rw [List.zip_cons_cons, List.filter_cons]
  by_cases h : step.object? = object
  · rw [if_pos (decide_eq_true h), if_pos h, List.map_cons]
  · rw [if_neg (by rwa [decide_eq_true_eq]), if_neg h]

section Runs

variable {w v : World} {σ : Nat → Nat} {τ : String → String} {steps : List Step}

theorem Interleaved.run {a : String → World} {b : World} {peers : String → Option (Peers × Tie)}
    (h : Interleaved w v σ τ steps a b peers) (hσ : World.Permutes σ w v) {rest : List Step}
    (hrest : ∀ step ∈ rest, step ∈ steps ∧ SideBySide w v σ τ steps step) :
    (∀ i, outcomesOf (some i) rest (performAll b (rest.map (Step.onto τ))).1 =
        outcomes (a i) (rest.filter fun step => step.object? = some i)) ∧
      outcomesOf none rest (performAll b (rest.map (Step.onto τ))).1 =
        ((rest.filter fun step => step.object? = none).map fun step =>
          (perform w step).1.outcome.map Answer.unmarked) ∧
      v.Extends (performAll b (rest.map (Step.onto τ))).2 ∧
      (performAll b (rest.map (Step.onto τ))).2.classIds = v.classIds ∧
      (performAll b (rest.map (Step.onto τ))).2.definitionIds = v.definitionIds := by
  induction rest generalizing a b peers with
  | nil => exact ⟨fun _ => rfl, rfl, h.right, h.rightClasses, h.rightDefinitions⟩
  | cons step rest ih =>
    obtain ⟨⟨hin, hstep⟩, hrest⟩ := List.forall_mem_cons.mp hrest
    obtain ⟨hon, hoff, peers', hnext⟩ := h.step hσ hin hstep
    obtain ⟨hobjects, hothers, hend⟩ := ih hnext hrest
    rw [List.map_cons, performAll_cons]
    refine ⟨fun i => ?_, ?_, hend⟩
    · rw [outcomesOf_cons, List.filter_cons]
      have hi := hobjects i
      by_cases hk : step.object? = some i
      · rw [if_pos hk, if_pos (decide_eq_true hk), outcomes_cons, hon i hk]
        rw [show stepAlone step a i = (perform (a i) step).2 from if_pos hk] at hi
        rw [← hi]
      · rw [if_neg hk, if_neg (by rwa [decide_eq_true_eq])]
        rwa [show stepAlone step a i = a i from if_neg hk] at hi
    · rw [outcomesOf_cons, List.filter_cons]
      by_cases hk : step.object? = none
      · rw [if_pos hk, if_pos (decide_eq_true hk), List.map_cons, hoff hk, hothers]
      · rw [if_neg hk, if_neg (by rwa [decide_eq_true_eq])]
        exact hothers

structure Beside (w v : World) (σ : Nat → Nat) (τ : String → String) (steps : List Step) : Prop where
  permutes : World.Permutes σ w v
  ahead : w.Ahead v id
  unnamed : ∀ step ∈ steps, ∀ i, step.object? = some i →
    Table.find? w.objectIds i = none ∧ Table.find? v.objectIds i = none
  steps : ∀ step ∈ steps, SideBySide w v σ τ steps step

theorem Beside.interleaved (h : Beside w v σ τ steps) :
    Interleaved w v σ τ steps (fun _ => w) v fun _ => none where
  left _ := World.Extends.refl w
  right := World.Extends.refl v
  ahead _ := h.ahead
  leftClasses _ := rfl
  rightClasses := rfl
  rightDefinitions := rfl
  stands i hi := by
    obtain ⟨step, hin, hs⟩ := hi
    exact .unmade (h.unnamed step hin i hs).1 (h.unnamed step hin i hs).2
  apart _ _ _ _ _ hp := nomatch hp

/-- In a session in which objects are made and called in any order, the outcomes of the steps on one
object are those that it has alone in the other session, and all that was there is there
afterwards. -/
theorem Beside.outcomesOf_eq (h : Beside w v σ τ steps) :
    (∀ i, outcomesOf (some i) steps (performAll v (steps.map (Step.onto τ))).1 =
        outcomes w (steps.filter fun step => step.object? = some i)) ∧
      outcomesOf none steps (performAll v (steps.map (Step.onto τ))).1 =
        ((steps.filter fun step => step.object? = none).map fun step =>
          (perform w step).1.outcome.map Answer.unmarked) ∧
      v.Extends (performAll v (steps.map (Step.onto τ))).2 ∧
      (performAll v (steps.map (Step.onto τ))).2.classIds = v.classIds ∧
      (performAll v (steps.map (Step.onto τ))).2.definitionIds = v.definitionIds :=
  h.interleaved.run h.permutes fun step hin => ⟨hin, h.steps step hin⟩

end Runs

end Session

end Toolwright
