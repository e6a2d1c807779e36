import Toolwright.Proofs.Isolation.Separate
import Toolwright.Proofs.Publication.Alike

/-!
# Defaults are inert

Definitions that differ in nothing but the defaults of their parameters, and in which of these are
required, become classes that tell the same and behave alike: whatever objects of the one class are
made and called in any order, the same steps on the other one have the same outcomes.
-/

namespace Toolwright

set_option autoImplicit false

/-! ## Adaptations -/

/-- An adaptation of a definition: the worlds around it, the definition as it was, the class below which
the new one was made, the helpers of that class, and the names of both. -/
structure Adapting where
  before : World
  after : World
  source : String
  draft : Draft
  definition : Definition Stored
  data : Nat → Prop
  base : Option String
  cls : ClassRef
  above : Definition Stored
  target : String

namespace Adapting

variable {A A' : Adapting} {u : World} {cls cls' : String} {σ : Nat → Nat} {name : String}

structure CameTo (A : Adapting) (u : World) (cls : String) : Prop where
  maker : A.definition.helper? "__new__" = none
  leads : A.after.LeadsTo u
  retains : A.before.Retains u A.data
  bound : Table.find? u.classIds cls = Table.find? A.after.classIds A.target
  stores : ∃ p E C, u.Declares p E C ∧ p.object = A.draft.object ∧ E.block = A.definition.block ∧
    E.name = A.definition.name

/-- The definition was adapted for a function-calling host that takes calls as the bundled one does,
and the name of the class was not declared anew. -/
structure OnFunctionHost (A : Adapting) (u : World) (cls : String) (s : Shelf) (t : ParameterTable) :
    Prop extends A.CameTo u cls where
  meets : Session.MeetsFunctionHost A.before A.source A.draft A.definition A.data A.base A.cls s t
  carries : A.before.Carries A.cls A.above
  call : ∃ k, A.before.find? A.cls "call" = some (.made k, .ofObject (.bundled (.host .callFunction)))
  performed : ∃ answer log, Session.perform A.before (.toLlm (some A.source) A.target A.base) =
    (⟨.ok answer, log⟩, A.after)
  titled : ∀ n, Table.find? u.classIds cls = some (.made n) →
    u.own? (.made n) "_name" = A.after.own? (.made n) "_name"

/-- The definition was adapted for a serving host that answers with objects of a class. -/
structure OnServingHost (A : Adapting) (u : World) (cls : String) (config : Option ConfigDraft)
    (a : Nat) : Prop extends A.CameTo u cls where
  meets : Session.MeetsServingHost A.before A.source A.draft A.definition A.data A.base A.cls
  answers : A.before.AnswersWith A.cls a
  performed : ∃ answer log, Session.perform A.before (.toMcp (some A.source) A.target A.base config) =
    (⟨.ok answer, log⟩, A.after)

/-- The definitions are the same but for the defaults of their parameters and for whether these are
required. Where functions were stored with both, they stand for each other. -/
structure Same (A A' : Adapting) (σ : Nat → Nat) : Prop where
  reads : A.before.DefinitionsAs A'.before A.definition A'.definition
  helps : A.definition.HelpsAs A'.definition σ
  block : A'.definition.block = A.definition.block.map (Stored.moved σ)

end Adapting

namespace World

variable {w v u : World}

theorem ReadsAs.trans {x y z : Value} (h : w.ReadsAs v x y) (h' : v.ReadsAs u y z) : w.ReadsAs u x z :=
  ⟨h'.exposed.trans h.exposed, h'.text.trans h.text, h'.printed.trans h.printed,
    h'.truth.trans h.truth⟩

theorem ReadsAs.symm {x y : Value} (h : w.ReadsAs v x y) : v.ReadsAs w y x :=
  ⟨h.exposed.symm, h.text.symm, h.printed.symm, h.truth.symm⟩

theorem DefinitionsAs.refl (w : World) (D : Definition Stored) : w.DefinitionsAs w D D where
  name := .refl w _
  description := .refl w _
  params := List.forall₂_same.mpr fun _ _ => ⟨.refl w _, .refl w _, .refl w _⟩

end World

namespace Adapting

variable {A A' : Adapting} {u : World} {cls cls' : String} {σ : Nat → Nat} {s s' : Shelf}
  {t t' : ParameterTable} {config config' : Option ConfigDraft} {a a' : Nat}

theorem Same.refl (A : Adapting) : A.Same A id where
  reads := .refl _ _
  helps := .refl _
  block := by
    rw [Stored.moved_id, Option.map_id]
    rfl

theorem CameTo.readsName (h : A.CameTo u cls)
    (hd : A.before.Declares A.draft A.definition A.data) :
    A.before.ReadsAs u A.definition.name A.definition.name :=
  h.retains.readsAs hd.data (hd.values _ List.mem_cons_self).1

theorem Same.storesAs (h : A.Same A' σ) (hc : A.CameTo u cls) (hc' : A'.CameTo u cls')
    (hd : A.before.Declares A.draft A.definition A.data)
    (hd' : A'.before.Declares A'.draft A'.definition A'.data) {E E' : Definition Stored}
    (hE : E.block = A.definition.block ∧ E.name = A.definition.name)
    (hE' : E'.block = A'.definition.block ∧ E'.name = A'.definition.name) :
    u.StoresAs u E E' σ where
  block := by rw [hE.1, hE'.1, h.block]
  unset _ := by
    have reads := ((hc.readsName hd).symm.trans h.reads.name).trans (hc'.readsName hd')
    unfold Machine.noBlockFault
    rw [hE.2, hE'.2, reads.printed]

/-- The definition with the helpers that objects of its class have on a function-calling host. -/
def helped (A : Adapting) : Definition Stored := A.definition.atop A.above

def FreeName (A A' : Adapting) (name : String) : Prop :=
  Session.HelperName A.before A.cls A.above name ∧ Session.HelperName A'.before A'.cls A'.above name

theorem OnFunctionHost.calls (h : A.OnFunctionHost u cls s t) :
    ∃ n text, Table.find? u.classIds cls = some (.made n) ∧
      u.CallsWith n A.draft.object A.helped (Session.HelperName A.before A.cls A.above) ∧
      A.before.textOf A.definition.name = .ok text ∧
      u.className (.made n) = Naming.className text "" ∧
      u.own? (.made n) "_name" = some (.value (.str text)) := by
  obtain ⟨answer, log, hp⟩ := h.performed
  obtain ⟨n, text, hn, hcalls, htext, hname, htitle⟩ := h.meets.calls_toLlm h.carries h.call h.maker hp
  have hbound := h.bound.trans hn
  exact ⟨n, text, hbound, h.leads.callsWith hcalls, htext,
    (h.leads.className hcalls.contextual.rooted).trans hname, (h.titled n hbound).trans htitle⟩

theorem OnServingHost.serves (h : A.OnServingHost u cls config a) :
    ∃ n name text indent given v, Table.find? u.classIds cls = some (.made (n + 1)) ∧
      Session.Configures { A.before with log := [] } config given v ∧
      (∀ m : Machine, (m.indentOf given).exec v = (.ok indent, v)) ∧
      A.before.textOf A.definition.name = .ok name ∧
      u.className (.made n) = Naming.className name "Helpers" ∧
      u.find? (.made (n + 1)) "helper_class" =
        some (.made (n + 1), .value (World.classValue (.made n))) ∧
      u.ServesWith (.made (n + 1)) (Machine.servedOf A.draft n indent text a) A.definition := by
  obtain ⟨answer, log, hp⟩ := h.performed
  obtain ⟨n, text, indent, given, v, hn, hgiven, hindent, hserves⟩ :=
    h.meets.serves_toMcp h.answers h.maker hp
  obtain ⟨w, n', name, _, _, _, _, _, -, -, hafter, -, -, hname, -, -, -, -, htool⟩ :=
    Session.perform_toMcp h.meets.toHolds h.meets.host h.meets.bases (a := answer) (by rw [hp])
  obtain ⟨own, hhelpers, -⟩ := htool.helpers
  obtain ⟨own', q, _, htoolcls, hown, -⟩ := htool.tool
  rw [hp] at hafter
  have hafter : A.after = _ := hafter
  have made : Table.find? A.after.classIds A.target = some (.made (n' + 1)) := by
    rw [hafter]
    exact (Table.find?_insert _ _ _ _).trans (if_pos rfl)
  obtain rfl : n = n' := by
    cases hn.symm.trans made
    rfl
  have hclass : A.after.className (.made n) = Naming.className name "Helpers" := by
    rw [hafter]
    exact hhelpers.className
  have hfind : A.after.find? (.made (n + 1)) "helper_class" =
      some (.made (n + 1), .value (World.classValue (.made n))) := by
    rw [hafter]
    exact htoolcls.find?_own hown.helperClass
  exact ⟨n, name, text, indent, given, v, h.bound.trans hn, hgiven, hindent, hname,
    (h.leads.className hserves.contextual.rooted).trans hclass,
    (h.leads.find? hserves.rooted (by decide)).trans hfind, h.leads.servesWith hserves⟩

end Adapting

/-! ## Twins -/

namespace Session

variable {u : World} {A A' : Adapting} {cls cls' : String} {σ : Nat → Nat} {τ : String → String}
  {steps : List Step}

def SameIndent (w w' : World) (config config' : Option ConfigDraft) : Prop :=
  ∀ x x' v v' indent indent', Configures w config x v → Configures w' config' x' v' →
    (∀ m : Machine, (m.indentOf x).exec v = (.ok indent, v)) →
    (∀ m : Machine, (m.indentOf x').exec v' = (.ok indent', v')) → indent' = indent

/-- Classes of a function-calling host that two such definitions became, one each, below classes with
the same helpers. The block of the definitions and all these helpers ask for names that both hosts leave
to helpers, or call getters of the hosts. -/
inductive FunctionTwins (u : World) (σ : Nat → Nat) (cls cls' : String) (A A' : Adapting) : Prop
  | adapted {s s' : Shelf} {t t' : ParameterTable} {apart : Nat → Prop}
    (left : A.OnFunctionHost u cls s t) (right : A'.OnFunctionHost u cls' s' t') (same : A.Same A' σ)
    (above : A.above.HelpsAs A'.above σ)
    (tables : List.Forall₂ (A.before.ParametersAs A'.before) t t')
    (discreet : ∀ n n', Table.find? u.classIds cls = some (.made n) →
      Table.find? u.classIds cls' = some (.made n') →
      A.helped.Discreet A.definition.block (A.FreeName A') (u.Getters u n n') True False apart)

/-- Classes of a serving host that two such definitions became, one each. The block of the definitions
and their helpers ask for no name to which the language gives a meaning. -/
inductive ServingTwins (u : World) (σ : Nat → Nat) (cls cls' : String) (A A' : Adapting) : Prop
  | adapted {config config' : Option ConfigDraft} {a a' : Nat} {apart : Nat → Prop}
    (left : A.OnServingHost u cls config a) (right : A'.OnServingHost u cls' config' a')
    (same : A.Same A' σ)
    (indents : SameIndent { A.before with log := [] } { A'.before with log := [] } config config')
    (answers : u.className (.made a') = u.className (.made a))
    (modest : A.definition.Modest A.definition.block (fun _ => True) True False apart)

theorem FunctionTwins.left (h : FunctionTwins u σ cls cls' A A') : FunctionTwins u id cls cls A A := by
  cases h with
  | @adapted s _ t _ apart left right same above tables discreet =>
    have unchanged : List.Forall₂ (A.before.ParametersAs A.before) t t :=
      List.forall₂_same.mpr fun p _ => ⟨rfl, rfl, .refl _ _, .refl _ _, .refl _ _⟩
    obtain ⟨n', -, hn', -⟩ := right.calls
    have alone (n k : Nat) (hn : Table.find? u.classIds cls = some (.made n))
        (hk : Table.find? u.classIds cls = some (.made k)) :
        A.helped.Discreet A.definition.block (A.FreeName A) (u.Getters u n k) True False apart := by
      obtain rfl : n = k := ClassRef.made.inj (Option.some.inj (hn.symm.trans hk))
      exact (discreet n n' hn hn').mono (fun _ hf => ⟨hf.1, hf.1⟩) fun _ => World.Getters.left
    exact .adapted left left (.refl A) (.refl A.above) unchanged alone

theorem SameIndent.refl (w : World) (config : Option ConfigDraft) : SameIndent w w config config := by
  intro x x' v v' indent indent' h h' hi hi'
  have made : x' = x ∧ v' = v := by
    cases config with
    | none => exact ⟨h'.1.trans h.1.symm, h'.2.trans h.2.symm⟩
    | some draft =>
      have h : (Machine.settings draft).exec w = (.ok x, v) := h
      cases h.symm.trans h'
      exact ⟨rfl, rfl⟩
  obtain ⟨rfl, rfl⟩ := made
  cases (hi machine).symm.trans (hi' machine)
  rfl

theorem ServingTwins.left (h : ServingTwins u σ cls cls' A A') : ServingTwins u id cls cls A A := by
  cases h with
  | adapted left right same indents answers modest =>
    exact .adapted left left (.refl A) (.refl _ _) rfl modest

theorem FunctionTwins.alike (h : FunctionTwins u σ cls cls' A A') (hx : u.extras = []) :
    ∃ n n', Executing u u σ cls cls' n n' ∧
      (∀ name, name = "execute" ∨ name = "call" ∨ Neutral name ∧ A.FreeName A' name →
        u.Callable u σ n n' name) ∧
      ∀ name s, Neutral name → A.FreeName A' name → A.helped.helper? name = some (.ofClass, s) →
        u.HelpsAlone u σ n n' name := by
  cases h with
  | adapted left right same above tables discreet =>
    have helps : A.helped.HelpsAs A'.helped σ := same.helps.atop above
    obtain ⟨n, text, hn, hcalls, htext, hname, htitle⟩ := left.calls
    obtain ⟨n', text', hn', hcalls', htext', hname', htitle'⟩ := right.calls
    rw [same.reads.name.text, htext] at htext'
    cases htext'
    obtain ⟨p, E, C, hd, hp, hE⟩ := left.stores
    obtain ⟨p', E', C', hd', hp', hE'⟩ := right.stores
    have stores := same.storesAs left.toCameTo right.toCameTo left.meets.toDeclares
      right.meets.toDeclares hE hE'
    replace discreet := discreet n n' hn hn'
    rw [← hE.1] at discreet
    rw [← hp] at hcalls
    rw [← hp'] at hcalls'
    have halike := hcalls.alike hcalls' helps hd hd' stores discreet (hname'.trans hname.symm)
      ⟨text, htitle, htitle'⟩ ⟨hx, hx⟩
    exact ⟨n, n', ⟨hn, hn', _, _, _, halike⟩, fun name hf => hcalls.callable hcalls' helps hf,
      fun name s hname hf hs => hcalls.contextual.helpsAlone hcalls'.contextual helps hname hf.1 hf.2 hs
        (discreet.alone (fun _ hg => hg.unclaimed) hs)⟩

theorem ServingTwins.alike (h : ServingTwins u σ cls cls' A A') (hx : u.extras = []) :
    ∃ n n' T T' apart, Table.find? u.classIds cls = some (.made (n + 1)) ∧
      Table.find? u.classIds cls' = some (.made (n' + 1)) ∧
      u.ServesAlike u σ (.made (n + 1)) (.made (n' + 1)) T T' apart ∧
      u.find? (.made (n + 1)) "helper_class" =
        some (.made (n + 1), .value (World.classValue (.made n))) ∧
      u.find? (.made (n' + 1)) "helper_class" =
        some (.made (n' + 1), .value (World.classValue (.made n'))) ∧
      ∀ name s, Neutral name → A.definition.helper? name = some (.ofClass, s) →
        u.HelpsAlone u σ n n' name := by
  cases h with
  | adapted left right same indents answers modest =>
    obtain ⟨n, name, text, indent, given, v, hn, hgiven, hindent, hname, hhelpers, hfind, hserves⟩ :=
      left.serves
    obtain ⟨n', name', text', indent', given', v', hn', hgiven', hindent', hname', hhelpers', hfind',
      hserves'⟩ := right.serves
    rw [same.reads.name.text, hname] at hname'
    cases hname'
    obtain ⟨p, E, C, hd, hp, hE⟩ := left.stores
    obtain ⟨p', E', C', hd', hp', hE'⟩ := right.stores
    have stores := same.storesAs left.toCameTo right.toCameTo left.meets.toDeclares
      right.meets.toDeclares hE hE'
    rw [← hE.1] at modest
    have hsame : indent' = indent := indents _ _ _ _ _ _ hgiven hgiven' hindent hindent'
    have halike := hserves.alike hserves' same.helps hd hd' hp hp' stores modest hsame answers
      (hhelpers'.trans hhelpers.symm) fun _ => ⟨hx, hx⟩
    refine ⟨n, n', _, _, _, hn, hn', halike, hfind, hfind', fun name s hname hs => ?_⟩
    exact hserves.contextual.helpsAlone hserves'.contextual same.helps hname trivial trivial hs
      (modest.discreet.alone (fun _ => False.elim) hs)

/-! ## Plays -/

/-- The steps that make objects of classes with twins and call them, and beside them calls of helpers
without a context and of serving tools. -/
inductive PlaysOnTwins (u : World) (σ : Nat → Nat) (τ : String → String) (steps : List Step) :
    Step → Prop
  | new {i cls : String} {A A' : Adapting} (h : FunctionTwins u σ cls (τ cls) A A') :
    PlaysOnTwins u σ τ steps (.new i cls)
  | call {i name : String} {args : List Literal} {named : Literal.Rows}
    (h : ∀ cls, .new i cls ∈ steps → ∃ A A', FunctionTwins u σ cls (τ cls) A A' ∧
      (name = "execute" ∨ name = "call" ∨ Neutral name ∧ A.FreeName A' name)) :
    PlaysOnTwins u σ τ steps (.callObject i name args named)
  | help {cls name : String} {A A' : Adapting} {s : Stored} {args : List Literal}
    {named : Literal.Rows} (h : FunctionTwins u σ cls (τ cls) A A') (hn : Neutral name)
    (hf : A.FreeName A' name) (hs : A.helped.helper? name = some (.ofClass, s)) :
    PlaysOnTwins u σ τ steps (.callClass cls name args named)
  | serve {cls : String} {A A' : Adapting} {args : List Literal} {named : Literal.Rows}
    (h : ServingTwins u σ cls (τ cls) A A') : PlaysOnTwins u σ τ steps (.callClass cls "call" args named)
  | helpServed {cls name : String} {A A' : Adapting} {s : Stored} {args : List Literal}
    {named : Literal.Rows} (h : ServingTwins u σ cls (τ cls) A A') (hn : Neutral name)
    (hs : A.definition.helper? name = some (.ofClass, s)) :
    PlaysOnTwins u σ τ steps (.callHelperClass cls name args named)

theorem PlaysOnTwins.left {step : Step} (h : PlaysOnTwins u σ τ steps step) :
    PlaysOnTwins u id id steps step := by
  cases h with
  | new h => exact .new h.left
  | call h =>
    refine .call fun cls hin => ?_
    obtain ⟨A, A', ht, hname⟩ := h cls hin
    exact ⟨A, A, ht.left, hname.imp_right (Or.imp_right fun hf => ⟨hf.1, hf.2.1, hf.2.1⟩)⟩
  | help h hn hf hs => exact .help h.left hn ⟨hf.1, hf.1⟩ hs
  | serve h => exact .serve h.left
  | helpServed h hn hs => exact .helpServed h.left hn hs

theorem PlaysOnTwins.sideBySide {step : Step} (h : PlaysOnTwins u σ τ steps step) (hx : u.extras = [])
    (hσ : World.Permutes σ u u) : SideBySide u u σ τ steps step := by
  cases h with
  | new h =>
    obtain ⟨n, n', he, -⟩ := h.alike hx
    exact .new he
  | call h =>
    refine .called fun cls c c' hin he => ?_
    obtain ⟨A, A', ht, hname⟩ := h cls hin
    obtain ⟨n, n', he', hcallable, -⟩ := ht.alike hx
    obtain rfl : n = c := ClassRef.made.inj (Option.some.inj (he'.1.symm.trans he.1))
    obtain rfl : n' = c' := ClassRef.made.inj (Option.some.inj (he'.2.1.symm.trans he.2.1))
    exact hcallable _ hname
  | help h hn hf hs =>
    obtain ⟨n, n', he, -, halone⟩ := h.alike hx
    exact .unmoved rfl (unmoved_helper hσ he.1 he.2.1 (halone _ _ hn hf hs) _ _)
  | serve h =>
    obtain ⟨n, n', T, T', apart, hc, hc', hserves, -⟩ := h.alike hx
    exact .unmoved rfl (unmoved_call hσ hc hc' hserves _ _)
  | helpServed h hn hs =>
    obtain ⟨n, n', T, T', apart, hc, hc', -, hfind, hfind', halone⟩ := h.alike hx
    exact .unmoved rfl (unmoved_helperClass hσ hc hc' hfind hfind' (halone _ _ hn hs) _ _)

theorem beside_twins (hx : u.extras = []) (hσ : World.Permutes σ u u)
    (hnew : ∀ step ∈ steps, ∀ i, step.object? = some i → Table.find? u.objectIds i = none)
    (h : ∀ step ∈ steps, PlaysOnTwins u σ τ steps step) : Beside u u σ τ steps where
  permutes := hσ
  ahead := (World.Grown.refl u).ahead
  unnamed step hs i hi := ⟨hnew step hs i hi, hnew step hs i hi⟩
  steps step hs := (h step hs).sideBySide hx hσ

theorem outcomes_of_parts {replies replies' : List Reply} (hl : replies.length = steps.length)
    (hl' : replies'.length = steps.length)
    (h : ∀ object, outcomesOf object steps replies' = outcomesOf object steps replies) :
    replies'.map (fun reply => reply.outcome.map Answer.unmarked) =
      replies.map fun reply => reply.outcome.map Answer.unmarked := by
  induction steps generalizing replies replies' with
  | nil =>
    rw [List.length_eq_zero_iff.mp hl, List.length_eq_zero_iff.mp hl']
  | cons step steps ih =>
    obtain ⟨reply, replies, rfl⟩ := List.exists_cons_of_length_eq_add_one hl
    obtain ⟨reply', replies', rfl⟩ := List.exists_cons_of_length_eq_add_one hl'
    have head := h step.object?
    rw [outcomesOf_cons, outcomesOf_cons, if_pos rfl, if_pos rfl] at head
    rw [List.map_cons, List.map_cons, (List.cons.inj head).1]
    refine congrArg _ (ih (Nat.succ.inj hl) (Nat.succ.inj hl') fun object => ?_)
    have rest := h object
    rw [outcomesOf_cons, outcomesOf_cons] at rest
    split at rest
    · exact (List.cons.inj rest).2
    · exact rest

theorem Beside.outcomes_eq (h : Beside u u σ τ steps) (hself : Beside u u id id steps) :
    outcomes u (steps.map (Step.onto τ)) = outcomes u steps := by
  obtain ⟨hobjects, hothers, -⟩ := h.outcomesOf_eq
  obtain ⟨hobjects', hothers', -⟩ := hself.outcomesOf_eq
  rw [map_onto_id] at hobjects' hothers'
  refine outcomes_of_parts (length_performAll _ _) ?_ fun object => ?_
  · rw [length_performAll, List.length_map]
  · cases object with
    | none => exact hothers.trans hothers'.symm
    | some i => exact (hobjects i).trans (hobjects' i).symm

/-- Definitions that differ in nothing but the defaults of their parameters, and in which of these are
required, become classes that tell the same, but for the required names in the schema of a serving
host, which are the same if the same parameters are required. Whatever is made of the one classes and
called in any order has the outcomes of the same steps on the others. -/
theorem defaults_inert (hx : u.extras = []) (hσ : World.Permutes σ u u)
    (hnew : ∀ step ∈ steps, ∀ i, step.object? = some i → Table.find? u.objectIds i = none)
    (h : ∀ step ∈ steps, PlaysOnTwins u σ τ steps step) :
    outcomes u (steps.map (Step.onto τ)) = outcomes u steps ∧
      (∀ cls cls' A A', FunctionTwins u σ cls cls' A A' → ∀ g : FunctionGetter,
        (perform A'.after (.callClass A'.target g.attribute [] [])).1.outcome =
          (perform A.after (.callClass A.target g.attribute [] [])).1.outcome) ∧
      ∀ cls cls' A A', ServingTwins u σ cls cls' A A' → ∃ text properties required required',
        (List.Forall₂ (fun spec spec' =>
            A'.before.truthOf spec'.required = A.before.truthOf spec.required)
          A.definition.params A'.definition.params → required' = required) ∧
        ∀ g : ServingGetter,
          (perform A.after (.callClass A.target g.attribute [] [])).1.outcome =
            A.before.servingTells (Naming.className text "")
              (servedCard A.definition text properties required) g ∧
          (perform A'.after (.callClass A'.target g.attribute [] [])).1.outcome =
            A.before.servingTells (Naming.className text "")
              (servedCard A.definition text properties required') g := by
  have beside := beside_twins hx hσ hnew h
  have permutes : World.Permutes id u u := ⟨Function.injective_id, fun _ hr => hr, fun _ _ => rfl⟩
  have alone := beside_twins hx permutes hnew fun step hs => (h step hs).left
  refine ⟨beside.outcomes_eq alone, fun cls cls' A A' ht g => ?_, fun cls cls' A A' ht => ?_⟩
  · cases ht with
    | adapted left right same above tables discreet =>
      obtain ⟨answer, log, hp⟩ := left.performed
      obtain ⟨answer', log', hp'⟩ := right.performed
      have told := functions_publish_alike left.meets right.meets same.reads tables
        (congrArg (·.1.outcome) hp) (congrArg (·.1.outcome) hp') g
      rwa [hp, hp'] at told
  · cases ht with
    | adapted left right same indents answers modest =>
      obtain ⟨answer, log, hp⟩ := left.performed
      obtain ⟨answer', log', hp'⟩ := right.performed
      have told := servings_publish_alike left.meets right.meets same.reads
        (congrArg (·.1.outcome) hp) (congrArg (·.1.outcome) hp')
      rwa [hp, hp'] at told

def defaultedSpec (n : Int) : ParamSpec := ⟨.str "x", .str "string", .null, .bool true, .int n⟩

def defaulted (n : Int) : Builder := .param { name := .str "x", default := .int n }

theorem perform_defaulted {w : World} {id : String} {p : Draft} {D : Definition Stored} {C : Nat → Prop}
    (h : Holds w id p D C) {n : Int}
    (ha : (perform w ((defaulted n).step id)).1.outcome.isOk = true) :
    ∃ p', Holds (perform w ((defaulted n).step id)).2 id p'
        (D.declare (defaultedSpec n)) C ∧
      w.Further (perform w ((defaulted n).step id)).2 p p'
        (D.declare (defaultedSpec n)) C C := by
  obtain ⟨a, log, ha⟩ := exists_perform ha
  have hlogged : w.Further { w with log := [] } p p D C C :=
    h.unchanged ((World.Later.refl w _).log [])
  obtain ⟨x, hr⟩ := of_perform_ok (show (perform w ((defaulted n).step id)).1.outcome = .ok a by rw [ha])
  rw [exec_named (h.log []) rfl] at hr
  have hvalues : ∀ y ∈ (defaultedSpec n).values,
      y.Within (World.data { w with log := [] } C) ∧ y.IsShared := by
    simp only [defaultedSpec, ParamSpec.values, List.forall_mem_cons]
    exact ⟨⟨trivial, rfl⟩, ⟨trivial, rfl⟩, ⟨trivial, rfl⟩, ⟨trivial, rfl⟩, ⟨trivial, rfl⟩,
      List.forall_mem_nil _⟩
  have sent : ((Machine.nested 999).definitionStep p.value ((defaulted n).step id)).exec
      { w with log := [] } =
    ((Machine.nested 999).send p.value "param" [] (defaultedSpec n).fields).exec { w with log := [] } := rfl
  rw [sent] at hr
  rcases Machine.exec_declareSpec 996 (h.log []).toDeclares hvalues with
    ⟨f, -, hfailed⟩ | ⟨notes, y, v, p', -, hdone, hf, -⟩
  · cases hfailed.symm.trans hr
  · obtain ⟨-, hv⟩ := Prod.mk.inj (hdone.symm.trans hr)
    rw [← hv]
    exact ⟨p', h.further (hlogged.trans hf), hlogged.trans hf⟩

def keeping : Block :=
  .mk [("x", none)] none (.seq [.setAttr "seen" (.var "x"), .getAttr "seen" .null])

theorem MeetsFunctionHost.after_toLlm {w v : World} {d c : String} {p : Draft} {D : Definition Stored}
    {C : Nat → Prop} {b : ClassRef} {s : Shelf} {t : ParameterTable} {answer : Answer} {log : List Record}
    (h : MeetsFunctionHost w d p D C none b s t)
    (hl : perform w (.toLlm (some d) c none) = (⟨.ok answer, log⟩, v)) :
    MeetsFunctionHost v d p D C none b s t ∧ w.Retains v C := by
  obtain ⟨u, text, names, rows, hlater, hv, -⟩ :=
    perform_toLlm h.toHolds h.host h.bases (a := answer) (by rw [hl])
  rw [hl] at hv
  subst hv
  have hu := h.further (h.unchanged hlater)
  have hr := hlater.retains h.data fun _ _ => id
  exact ⟨{ hu.toDeclares.named _ with
    named := hu.named
    host := hu.host.named _
    reads := hu.reads
    bases := hu.bases
    shelfApart := hu.shelfApart }, { hr with }⟩

theorem readapted_twins {w v w₁ w' u : World} {d c c' : String} {p : Draft} {D : Definition Stored}
    {C : Nat → Prop} {b : ClassRef} {s : Shelf} {n n' : Int} {answer answer' : Answer}
    {log log' : List Record} (h : MeetsFunctionHost w d p (D.declare (defaultedSpec n)) C none b s [])
    (hb : w.Helpless b)
    (hcall : ∃ k, w.find? b "call" = some (.made k, .ofObject (.bundled (.host .callFunction))))
    (hmaker : D.helper? "__new__" = none)
    (hl : perform w (.toLlm (some d) c none) = (⟨.ok answer, log⟩, v))
    (hdrop : (perform v (Builder.dropParam.step d)).1.outcome.isOk = true)
    (hw₁ : (perform v (Builder.dropParam.step d)).2 = w₁)
    (hanew : (perform w₁ ((defaulted n').step d)).1.outcome.isOk = true)
    (hw' : (perform w₁ ((defaulted n').step d)).2 = w')
    (hl' : perform w' (.toLlm (some d) c' none) = (⟨.ok answer', log'⟩, u))
    (hc : Table.find? u.classIds c = Table.find? v.classIds c)
    (hmodest : (D.declare (defaultedSpec n)).Modest D.block
      (fun name => FreeName w b name ∧ FreeName w' b name) True False fun _ => False) :
    ∃ A A', FunctionTwins u id c c' A A' ∧ A.before = w ∧ A.after = v ∧ A.target = c ∧ A.cls = b ∧
      A'.before = w' ∧ A'.after = u ∧ A'.target = c' ∧ A'.cls = b ∧
      A.definition = D.declare (defaultedSpec n) ∧ A'.definition = D.declare (defaultedSpec n') := by
  obtain ⟨again, hv⟩ := h.after_toLlm hl
  obtain ⟨p₁, D₁, C₁, h₁, hn₁, hf₁⟩ := perform_builder_ok again.toHolds hdrop
  cases hn₁
  rw [hw₁] at h₁ hf₁
  obtain ⟨p', h', hf'⟩ := perform_defaulted h₁ hanew
  rw [hw'] at h' hf'
  have hdropped : { (D.declare (defaultedSpec n)) with
      params := (D.declare (defaultedSpec n)).params.dropLast } = D := by
    show { D with params := (D.params ++ [defaultedSpec n]).dropLast } = D
    rw [List.dropLast_concat]
  rw [hdropped] at h' hf'
  have meets := (again.further hf₁).further hf'
  obtain ⟨meets', hr'⟩ := meets.after_toLlm hl'
  have hdeclared := hf₁.trans hf'
  have hwv := h.leadsTo_toLlm hl
  have hvw' := hdeclared.leadsTo
  have hvu := hvw'.trans (meets.leadsTo_toLlm hl')
  have hdata := h.toDeclares.data
  have hww' := (h.after_toLlm hl).2.trans (hdeclared.later.retains again.data again.not_changes)
  have hretains : w.Retains u C :=
    hww'.trans { hr' with cells := fun k hk => hr'.cells k (hdeclared.data k hk) }
  obtain ⟨k, text, hk, hcalls, -⟩ := h.calls_toLlm hb.carries hcall hmaker hl
  have titled : u.own? (.made k) "_name" = v.own? (.made k) "_name" := by
    rw [meets.own?_toLlm hl' (hdeclared.later.rooted hcalls.contextual.rooted)]
    refine hdeclared.later.own? ?_ "_name"
    rintro _ ⟨⟩
    exact hcalls.contextual.rooted k List.mem_cons_self
  have modest : ((D.declare (defaultedSpec n)).atop .bare).Modest D.block
      (fun name => HelperName w b .bare name ∧ HelperName w' b .bare name) True False fun _ => False := by
    rw [Definition.atop_bare]
    exact hmodest.mono fun name hf => ⟨hf.1.helperName (Machine.reserved_setNames h.host),
      hf.2.helperName (Machine.reserved_setNames meets.host)⟩
  refine ⟨⟨w, v, d, p, D.declare (defaultedSpec n), C, none, b, .bare, c⟩,
    ⟨w', u, d, p', D.declare (defaultedSpec n'), C₁, none, b, .bare, c'⟩,
    .adapted
      { maker := hmaker
        leads := hvu
        retains := hretains
        bound := hc
        stores := ⟨p', _, _, meets'.toDeclares, ?_, rfl, rfl⟩
        meets := h
        carries := hb.carries
        call := hcall
        performed := ⟨answer, log, hl⟩
        titled := ?_ }
      { maker := hmaker
        leads := .refl
        retains := hr'
        bound := rfl
        stores := ⟨p', _, _, meets'.toDeclares, rfl, rfl, rfl⟩
        meets := meets
        carries := (hwv.trans hvw').carries h.host.rooted hb.carries
        call := ?_
        performed := ⟨answer', log', hl'⟩
        titled := fun _ _ => rfl }
      { reads := ?_
        helps := ⟨(Definition.HelpsAs.refl D).ofInstance, (Definition.HelpsAs.refl D).ofClass⟩
        block := ?_ }
      (.refl .bare) .nil fun _ _ _ _ => modest.discreet,
    rfl, rfl, rfl, rfl, rfl, rfl, rfl, rfl, rfl, rfl⟩
  · rw [hf'.place, hf₁.place]
  · intro j hj
    obtain rfl : k = j := ClassRef.made.inj (Option.some.inj (hk.symm.trans (hc.symm.trans hj)))
    exact titled
  · obtain ⟨j, hj⟩ := hcall
    exact ⟨j, ((hwv.trans hvw').find? h.host.rooted (by decide)).trans hj⟩
  · have kept (x : Value) (hx : x ∈ (D.declare (defaultedSpec n)).values) : w.ReadsAs w' x x :=
      hww'.readsAs hdata (h.values x hx).1
    refine ⟨kept _ List.mem_cons_self, kept _ (List.mem_cons_of_mem _ List.mem_cons_self), ?_⟩
    have shared (spec : ParamSpec) (hspec : spec ∈ (D.declare (defaultedSpec n)).params) :
        w.SpecsAs w' spec spec := by
      have hmem (x : Value) (hx : x ∈ spec.values) : x ∈ (D.declare (defaultedSpec n)).values :=
        List.mem_cons_of_mem _ (List.mem_cons_of_mem _ (List.mem_flatMap_of_mem hspec hx))
      exact ⟨kept _ (hmem _ List.mem_cons_self),
        kept _ (hmem _ (List.mem_cons_of_mem _ List.mem_cons_self)),
        kept _ (hmem _ (List.mem_cons_of_mem _ (List.mem_cons_of_mem _ List.mem_cons_self)))⟩
    obtain ⟨hname, htype, hdescription⟩ :=
      shared (defaultedSpec n) (List.mem_append_right _ List.mem_cons_self)
    exact List.rel_append
      (List.forall₂_same.mpr fun spec hspec => shared spec (List.mem_append_left _ hspec))
      (.cons ⟨hname, htype, hdescription⟩ .nil)
  · show D.block = D.block.map (Stored.moved id)
    rw [Stored.moved_id, Option.map_id]
    rfl

def defaultedTool : World :=
  (perform (declaring (.str "tool") [.execute keeping]) ((defaulted 1).step "d")).2

def adaptedTool : World := (perform defaultedTool (.toLlm (some "d") "L" none)).2

def undeclaredTool : World := (perform adaptedTool (Builder.dropParam.step "d")).2

def redefaultedTool : World := (perform undeclaredTool ((defaulted 2).step "d")).2

def readaptedTool : World := (perform redefaultedTool (.toLlm (some "d") "M" none)).2

def keepingSteps : List Step :=
  [.new "i" "L", .callObject "i" "execute" [] [("x", .str "given")],
    .callObject "i" "call" [.dict []] []]

theorem keeping_modest {x : Value} {D : Definition Stored}
    (h : Definition.Built { name := x } [.execute keeping] D) {free : String → Prop}
    (hfree : free "seen") (sameName settable : Prop) :
    D.Modest D.block free sameName settable fun _ => False where
  permits s hs u hu := by
    have neutral : Neutral "seen" := neutral_of_startsWith (by decide +kernel) (by decide)
    have asked : ∀ op ∈ [Builder.execute keeping], ∀ block, op.block? = some block → ∀ u ∈ block.uses,
        u = .asked "seen" ∨ u = .written "seen" := by decide
    rcases h.of_mem_bodies hs with hm | ⟨op, hop, he⟩
    · cases hm
    · rcases asked op hop _ he u hu with rfl | rfl
      · exact ⟨neutral, hfree⟩
      · exact ⟨neutral, hfree⟩
  apart _ _ h := h.elim

set_option maxRecDepth 100000 in
theorem defaults_inert_keeping : ∃ (D : Definition Stored) (A A' : Adapting),
    FunctionTwins readaptedTool id "L" "M" A A' ∧
    A.definition = D.declare (defaultedSpec 1) ∧ A'.definition = D.declare (defaultedSpec 2) ∧
    readaptedTool.extras = [] ∧ World.Permutes id readaptedTool readaptedTool ∧
    (∀ step ∈ keepingSteps, ∀ i, step.object? = some i →
      Table.find? readaptedTool.objectIds i = none) ∧
    (∀ step ∈ keepingSteps, PlaysOnTwins readaptedTool id (fun _ => "M") keepingSteps step) ∧
    outcomes readaptedTool (keepingSteps.map (Step.onto fun _ => "M")) =
      outcomes readaptedTool keepingSteps := by
  have told : (perform start (.define "d" (.str "tool") none)).1.outcome.isOk = true ∧
      (perform (declaring (.str "tool") [.execute keeping]) ((defaulted 1).step "d")).1.outcome.isOk =
        true ∧
      (perform defaultedTool (.toLlm (some "d") "L" none)).1.outcome.isOk = true ∧
      (perform adaptedTool (Builder.dropParam.step "d")).1.outcome.isOk = true ∧
      (perform undeclaredTool ((defaulted 2).step "d")).1.outcome.isOk = true ∧
      (perform redefaultedTool (.toLlm (some "d") "M" none)).1.outcome.isOk = true ∧
      readaptedTool.extras.isEmpty = true ∧ readaptedTool.objectIds.isEmpty = true ∧
      Table.find? readaptedTool.classIds "L" = Table.find? adaptedTool.classIds "L" := by
    decide +kernel
  have free : ∀ w ∈ [defaultedTool, redefaultedTool],
      (Machine.reservedNames w (World.classValue functionClassRef)).contains "seen" = false ∧
        (w.find? functionClassRef "seen").isNone = true := by
    decide +kernel
  have hw := defaultedTool.eq_1.symm
  have hv := adaptedTool.eq_1.symm
  have hw₁ := undeclaredTool.eq_1.symm
  have hw' := redefaultedTool.eq_1.symm
  have hu := readaptedTool.eq_1.symm
  generalize defaultedTool = w at *
  generalize adaptedTool = v at *
  generalize undeclaredTool = w₁ at *
  generalize redefaultedTool = w' at *
  generalize readaptedTool = u at *
  obtain ⟨hdefined, hdeclared, hadapted, hdropped, hanew, hagain, hextras, hobjects, hbound⟩ := told
  have hfree : ∀ x ∈ [w, w'], FreeName x functionClassRef "seen" :=
    fun x hx => ⟨(free x hx).1, Option.isNone_iff_eq_none.mp (free x hx).2, by decide⟩
  obtain ⟨p₀, D, C, x, hf₀, -, hbuilt, hhelp, hleads, -⟩ := declaring_meets [.execute keeping] hdefined
  generalize declaring (.str "tool") [.execute keeping] = w₀ at *
  obtain ⟨p, -, hfur⟩ := perform_defaulted hf₀.toHolds hdeclared
  rw [hw] at hfur
  have hf := hf₀.further hfur
  have hled := hleads.trans hfur.leadsTo
  have hcall : ∃ k, w.find? functionClassRef "call" =
      some (.made k, .ofObject (.bundled (.host .callFunction))) :=
    ⟨0, (hled.find? functionBase_start.rooted (by decide)).trans rfl⟩
  have hmaker : D.helper? "__new__" = none := Definition.helper?_none fun scope => by
    rw [hhelp]
    cases scope <;> rfl
  have hmodest : D.Modest D.block (fun name =>
      FreeName w functionClassRef name ∧ FreeName w' functionClassRef name) True False fun _ => False :=
    keeping_modest hbuilt ⟨hfree w (by simp), hfree w' (by simp)⟩ True False
  obtain ⟨answer, log, hl⟩ := exists_perform hadapted
  obtain ⟨answer', log', hl'⟩ := exists_perform hagain
  rw [hv] at hl
  rw [hu] at hl'
  obtain ⟨A, A', htwins, -, -, -, -, -, -, -, -, hD, hD'⟩ :=
    readapted_twins hf (hled.helpless functionBase_start.rooted helpless_start) hcall hmaker hl hdropped
      hw₁ hanew hw' hl' hbound ⟨hmodest.permits, hmodest.apart⟩
  have hextras := List.isEmpty_iff.mp hextras
  have hunnamed : ∀ step ∈ keepingSteps, ∀ i, step.object? = some i →
      Table.find? u.objectIds i = none := by
    intro _ _ i _
    rw [List.isEmpty_iff.mp hobjects]
    rfl
  have permutes : World.Permutes id u u := ⟨Function.injective_id, fun _ hr => hr, fun _ _ => rfl⟩
  have called {i name : String} (args : List Literal) (named : Literal.Rows)
      (hname : name = "execute" ∨ name = "call") :
      PlaysOnTwins u id (fun _ => "M") keepingSteps (.callObject i name args named) := by
    refine .call fun cls hin => ?_
    obtain rfl : cls = "L" := by
      simp only [keepingSteps, List.mem_cons, Step.new.injEq, reduceCtorEq, List.not_mem_nil,
        or_false] at hin
      exact hin.2
    exact ⟨A, A', htwins, hname.imp_right Or.inl⟩
  have hplays : ∀ step ∈ keepingSteps, PlaysOnTwins u id (fun _ => "M") keepingSteps step := by
    intro step hstep
    simp only [keepingSteps, List.mem_cons, List.not_mem_nil, or_false] at hstep
    rcases hstep with rfl | rfl | rfl
    · exact .new htwins
    · exact called _ _ (.inl rfl)
    · exact called _ _ (.inr rfl)
  exact ⟨D, A, A', htwins, hD, hD', hextras, permutes, hunnamed, hplays,
    (defaults_inert hextras permutes hunnamed hplays).1⟩

/-- Steps that adapt a definition of which the block asks its context for the definition itself, and
lets a helper ask that for its parameters. -/
def askingDefaults (id cls i : String) (n : Int) : List Step :=
  [.define id (.str "tool") none, (defaulted n).step id,
    .help (some id) .ofInstance "reach" (.mk [] none (.getAttr "params" .null)),
    .execute (some id) (.mk [] none (.classHelper "reach" [.getAttr "definition" .null] [])),
    .toLlm (some id) cls none, .new i cls, .callObject i "execute" [] []]

def listedDefaults : Except Fault Answer → Option (List Int)
  | .ok (.list params) => some (params.flatMap fun
    | .param fields => fields.filterMap fun
      | .int n => some n
      | _ => none
    | _ => [])
  | _ => none

set_option maxRecDepth 100000 in
/-- A block that asks for its definition tells the defaults apart. -/
theorem blocks_read_defaults :
    (outcomes start (askingDefaults "d" "L" "i" 1 ++ askingDefaults "e" "K" "j" 2)).filterMap
      listedDefaults = [[1], [2]] := by
  decide +kernel

end Session

end Toolwright
