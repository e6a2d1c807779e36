import Toolwright.Proofs.Isolation.Adapted
import Toolwright.Proofs.Publication.Kept

/-!
# Objects to themselves

A session makes objects of classes that definitions were adapted to, and calls them in any order. As
long as blocks ask only for what the hosts leave to helpers, each object behaves as if it were alone:
what is set on it is there for all its later calls, and for nothing else.
-/

namespace Toolwright

set_option autoImplicit false

namespace Session

variable {u : World} {cls : String} {D : Definition Stored} {free : String → Prop}

/-- A class that a session has of a definition that it adapted for a function-calling host, to a class
that may have helpers. The block that the definition stores now and the helpers of both ask for names
that the host leaves to helpers, or call getters of the host, and the name that was declared on the
class is a text. -/
inductive Confined (u : World) (cls : String) : Definition Stored → (String → Prop) → Prop
  | adapted {w v : World} {d c : String} {base : Option String} {b : ClassRef} {p p' : Draft}
    {D E B : Definition Stored} {C C' : Nat → Prop} {s : Shelf} {t : ParameterTable} {answer : Answer}
    {log : List Record} {apart : Nat → Prop} (meets : MeetsFunctionHost w d p D C base b s t)
    (carries : w.Carries b B)
    (call : ∃ k, w.find? b "call" = some (.made k, .ofObject (.bundled (.host .callFunction))))
    (maker : D.helper? "__new__" = none)
    (performed : perform w (.toLlm (some d) c base) = (⟨.ok answer, log⟩, v)) (leads : v.LeadsTo u)
    (bound : Table.find? u.classIds cls = Table.find? v.classIds c) (declares : u.Declares p' E C')
    (place : p'.object = p.object)
    (discreet : ∀ n, Table.find? u.classIds cls = some (.made n) →
      (D.atop B).Discreet E.block (HelperName w b B) (u.Getters u n n) True False apart)
    (titled : ∀ n, Table.find? u.classIds cls = some (.made n) →
      ∃ text, u.own? (.made n) "_name" = some (.value (.str text))) :
    Confined u cls (D.atop B) (HelperName w b B)

/-- A class that a session has of a definition that it adapted for a serving host, or one that is
called as it is. The block that the definition stores now and its helpers ask for no name to which the
language gives a meaning. -/
inductive Answering (u : World) (cls : String) : Prop
  | adapted {w v : World} {d c : String} {base : Option String} {b k : ClassRef} {p p' : Draft}
    {D E : Definition Stored} {C C' : Nat → Prop} {a n : Nat} {config : Option ConfigDraft}
    {answer : Answer} {log : List Record} {apart : Nat → Prop}
    (meets : MeetsServingHost w d p D C base b) (answers : w.AnswersWith b a)
    (maker : D.helper? "__new__" = none)
    (performed : perform w (.toMcp (some d) c base config) = (⟨.ok answer, log⟩, v))
    (leads : v.LeadsTo u) (made : Table.find? v.classIds c = some (.made n))
    (bound : Table.find? u.classIds cls = some k) (called : u.CalledAs k n)
    (declares : u.Declares p' E C') (place : p'.object = p.object)
    (modest : D.Modest E.block (fun _ => True) True False apart)
    (unset : (∃ r, apart r) → u.extras = []) : Answering u cls

inductive Plays (u : World) (steps : List Step) : Step → Prop
  | new {i cls : String} {D : Definition Stored} {free : String → Prop} (h : Confined u cls D free) :
    Plays u steps (.new i cls)
  | call {i name : String} {args : List Literal} {named : Literal.Rows}
    (h : ∀ cls, .new i cls ∈ steps → ∃ D free, Confined u cls D free ∧
      (name = "execute" ∨ name = "call" ∨ Neutral name ∧ free name)) :
    Plays u steps (.callObject i name args named)
  | help {cls name : String} {D : Definition Stored} {free : String → Prop} {s : Stored}
    {args : List Literal} {named : Literal.Rows} (h : Confined u cls D free) (hn : Neutral name)
    (hf : free name) (hs : D.helper? name = some (.ofClass, s)) :
    Plays u steps (.callClass cls name args named)
  | serve {cls : String} {args : List Literal} {named : Literal.Rows} (h : Answering u cls) :
    Plays u steps (.callClass cls "call" args named)

theorem Confined.calls (h : Confined u cls D free) :
    ∃ n o p' E C' apart, Table.find? u.classIds cls = some (.made n) ∧ u.CallsWith n o D free ∧
      u.Declares p' E C' ∧ p'.object = o ∧
      D.Discreet E.block free (u.Getters u n n) True False apart ∧
      ∃ text, u.own? (.made n) "_name" = some (.value (.str text)) := by
  cases h with
  | adapted meets carries call maker performed leads bound declares place discreet titled =>
    obtain ⟨n, text, hn, hcalls, -⟩ := meets.calls_toLlm carries call maker performed
    have hbound := bound.trans hn
    exact ⟨n, _, _, _, _, _, hbound, leads.callsWith hcalls, declares, place, discreet n hbound,
      titled n hbound⟩

theorem Confined.executing (h : Confined u cls D free) (hx : u.extras = []) :
    ∃ n, Executing u u id cls cls n n := by
  obtain ⟨n, o, p', E, C', apart, hn, hcalls, hd, rfl, hm, text, htitle⟩ := h.calls
  refine ⟨n, hn, hn, p'.object, p'.object, apart, ?_⟩
  exact hcalls.alike hcalls (Definition.HelpsAs.refl D) hd hd (.refl u E)
    (hm.mono (fun _ hf => ⟨hf, hf⟩) fun _ => id) rfl ⟨text, htitle, htitle⟩ ⟨hx, hx⟩

theorem Confined.helpsAlone (h : Confined u cls D free) {name : String} (hn : Neutral name)
    (hf : free name) {s : Stored} (hs : D.helper? name = some (.ofClass, s)) :
    ∃ n, Table.find? u.classIds cls = some (.made n) ∧ u.HelpsAlone u id n n name := by
  obtain ⟨n, o, p', E, C', apart, hbound, hcalls, -, -, hm, -⟩ := h.calls
  exact ⟨n, hbound, hcalls.contextual.helpsAlone hcalls.contextual (.refl D) hn hf hf hs
    (hm.alone (fun _ hg => hg.unclaimed) hs)⟩

theorem Answering.serves (h : Answering u cls) : ∃ c t apart,
    Table.find? u.classIds cls = some c ∧ u.ServesApart c t apart := by
  cases h with
  | @adapted w v d c base b k p p' D E C C' a n config answer log apart meets answers maker performed
      leads made bound called declares place modest unset =>
    obtain ⟨m, text, indent, given, u₀, hfound, -, -, hserved⟩ := meets.serves_toMcp answers maker performed
    obtain rfl : n = m + 1 := ClassRef.made.inj (Option.some.inj (made.symm.trans hfound))
    have hserves := leads.servesWith hserved
    refine ⟨k, _, apart, bound, ⟨hserves.toServes.calledAs called, ?_⟩⟩
    show u.Stores p.object _
    rw [← place]
    exact declares.stores_same hserves.contextual hserves.contextual
      (modest.mono fun _ _ => ⟨trivial, trivial⟩) (fun _ => rfl) unset

theorem Plays.beside {steps : List Step} {step : Step} (h : Plays u steps step) (hx : u.extras = []) :
    SideBySide u u id id steps step := by
  have permutes : World.Permutes id u u := ⟨Function.injective_id, fun _ hr => hr, fun _ _ => rfl⟩
  cases h with
  | new h =>
    obtain ⟨n, he⟩ := h.executing hx
    exact .new he
  | call h =>
    refine .called fun cls c c' hin he => ?_
    obtain ⟨D, free, hc, hname⟩ := h cls hin
    obtain ⟨n, o, -, -, -, -, hn, hcalls, -⟩ := hc.calls
    obtain rfl : n = c := ClassRef.made.inj (Option.some.inj (hn.symm.trans he.1))
    obtain rfl : n = c' := ClassRef.made.inj (Option.some.inj (hn.symm.trans he.2.1))
    exact hcalls.callable hcalls (.refl D) (hname.imp_right (Or.imp_right fun hf => ⟨hf.1, hf.2, hf.2⟩))
  | help h hn hf hs =>
    obtain ⟨n, hc, halone⟩ := h.helpsAlone hn hf hs
    exact .unmoved rfl (unmoved_helper permutes hc hc halone _ _)
  | serve h =>
    obtain ⟨c, t, apart, hc, hserves⟩ := h.serves
    exact .unmoved rfl (unmoved_call permutes hc hc hserves.alike _ _)

theorem beside_of_plays {steps : List Step} (hx : u.extras = [])
    (hnew : ∀ step ∈ steps, ∀ i, step.object? = some i → Table.find? u.objectIds i = none)
    (h : ∀ step ∈ steps, Plays u steps step) : Beside u u id id steps where
  permutes := ⟨Function.injective_id, fun _ hr => hr, fun _ _ => rfl⟩
  ahead := (World.Grown.refl u).ahead
  unnamed step hs i hi := ⟨hnew step hs i hi, hnew step hs i hi⟩
  steps step hs := (h step hs).beside hx

theorem map_onto_id (steps : List Step) : steps.map (Step.onto id) = steps :=
  (List.map_congr_left fun step _ => step.onto_id).trans (List.map_id steps)

theorem extends_of_plays {steps : List Step} (hx : u.extras = [])
    (hnew : ∀ step ∈ steps, ∀ i, step.object? = some i → Table.find? u.objectIds i = none)
    (h : ∀ step ∈ steps, Plays u steps step) :
    u.Extends (performAll u steps).2 ∧ (performAll u steps).2.classIds = u.classIds ∧
      (performAll u steps).2.definitionIds = u.definitionIds := by
  obtain ⟨-, -, hextends⟩ := (beside_of_plays hx hnew h).outcomesOf_eq
  rwa [map_onto_id] at hextends

/-- Whatever order objects are made and called in, the outcomes of the steps on each of them are those
that the steps have alone, calls of serving tools and of helpers without a context have the outcomes
that they have at first, and all classes tell afterwards what they told before. -/
theorem objects_to_themselves {steps : List Step} (hx : u.extras = [])
    (hnew : ∀ step ∈ steps, ∀ i, step.object? = some i → Table.find? u.objectIds i = none)
    (h : ∀ step ∈ steps, Plays u steps step) :
    (∀ i, outcomesOf (some i) steps (performAll u steps).1 =
        outcomes u (steps.filter fun step => step.object? = some i)) ∧
      outcomesOf none steps (performAll u steps).1 =
        ((steps.filter fun step => step.object? = none).map fun step =>
          (perform u step).1.outcome.map Answer.unmarked) ∧
      ∀ C, u.Bundled → u.HoldsData C → ∀ cls n, Table.find? u.classIds cls = some (.made n) →
        (∀ card s, u.FunctionHost n card s C → ∀ g : FunctionGetter,
          (perform (performAll u steps).2 (.callClass cls g.attribute [] [])).1.outcome =
            (perform u (.callClass cls g.attribute [] [])).1.outcome) ∧
        ∀ card, u.ServingHost n card C → ∀ g : ServingGetter,
          (perform (performAll u steps).2 (.callClass cls g.attribute [] [])).1.outcome =
            (perform u (.callClass cls g.attribute [] [])).1.outcome := by
  obtain ⟨hobjects, hothers, -⟩ := (beside_of_plays hx hnew h).outcomesOf_eq
  obtain ⟨hextends, hclasses, -⟩ := extends_of_plays hx hnew h
  rw [map_onto_id] at hobjects hothers
  refine ⟨hobjects, hothers, fun C hb hd cls n hc => ?_⟩
  generalize (performAll u steps).2 = v at hextends hclasses
  have hb' : v.Bundled := ⟨hextends.classes ▸ hb.classes, hextends.extras ▸ hb.places⟩
  have hr := hextends.retains hd
  have hk := World.keepsClass_congr hextends.classes n
  have hc' : Table.find? v.classIds cls = some (.made n) := hclasses ▸ hc
  refine ⟨fun card s h g => ?_, fun card h g => ?_⟩
  · exact function_tells_kept hb hb' hd hr h (h.kept hk hr hextends.objects fun _ _ _ => hextends.cell)
      hk.className hc hc' g
  · exact serving_tells_kept hb hb' hd hr h (h.kept hk hr hextends.objects fun _ _ _ => hextends.cell)
      hk.className hc hc' g

/-- What is declared of a definition that has no helpers: its block calls one of the class to which it
is adapted, and asks for the name of the tool. -/
def inheriting : List Builder :=
  [.execute (.mk [("text", none)] none
    (.list [.helper "note" [] [], .helper "tool_name" [] [], .hasAttr "seen"]))]

def sharedTool : World :=
  (perform (declaring (.str "tool") sharing) (.toLlm (some "d") "L" none)).2

def declaredHeir : World :=
  (performAll (perform sharedTool (.define "e" (.str "heir") none)).2
    (inheriting.map (Builder.step "e"))).2

def adaptedHeir : World := (perform declaredHeir (.toLlm (some "e") "M" (some "L"))).2

def interleaved : List Step :=
  [.new "i" "M", .callObject "i" "note" [] [], .new "j" "M",
    .callObject "i" "execute" [] [("text", .str "ho")],
    .callObject "j" "call" [.dict [(.str "text", .str "hi")]] [], .callClass "M" "shout" [.str "he"] []]

theorem inheriting_discreet {x : Value} {D E : Definition Stored}
    (h : Definition.Built { name := x } inheriting E) (hbare : ∀ name, E.helper? name = none)
    {free told : String → Prop} (hfree : ∀ name ∈ ["note", "seen"], Neutral name ∧ free name)
    (htold : told "tool_name") {block : Option Stored} {sameName settable : Prop}
    (hm : D.Modest block free sameName settable fun _ => False) :
    (E.atop D).Discreet E.block free told sameName settable fun _ => False := by
  have asked : ∀ op ∈ inheriting, ∀ block, op.block? = some block → ∀ u ∈ block.uses,
      u = .called "tool_name" ∨ u = .called "note" ∨ u = .asked "seen" := by
    decide
  refine .atop fun s hs => ⟨fun u hu => ?_, False.elim⟩
  rw [← List.append_assoc] at hs
  rcases List.mem_append.mp hs with hs | hs
  · rcases h.of_mem_bodies hs with hnone | ⟨op, hop, he⟩
    · cases hnone
    · rcases asked op hop _ he u hu with rfl | rfl | rfl
      · exact .inl ⟨_, rfl, htold⟩
      · exact .inr ⟨hfree _ (by decide), hfree _ (by decide)⟩
      · exact .inr ⟨hfree _ (by decide), hfree _ (by decide)⟩
  · have hp := hm.permits s (List.mem_append_right _ hs) u hu
    refine .inr ⟨?_, hp⟩
    cases u with
    | ofClass name => exact ⟨hp.1, fun t ht => by rw [hbare] at ht; cases ht⟩
    | asked name | called name | written name | className | step => exact hp

/-- A class that was adapted is one below which definitions are adapted, and it carries the helpers of
its own. -/
theorem sharedTool_carries : ∃ n p D C s t note shout,
    Table.find? sharedTool.classIds "L" = some (.made n) ∧
    MeetsFunctionHost sharedTool "d" p D C (some "L") (.made n) s t ∧
    MeetsServingHost sharedTool "d" p D C none servingClassRef ∧
    sharedTool.CallsWith n p.object D (HelperName (declaring (.str "tool") sharing) functionClassRef .bare) ∧
    sharedTool.Carries (.made n) D ∧
    D.helper? "note" = some (.ofInstance, note) ∧ D.helper? "shout" = some (.ofClass, shout) ∧
    (∀ name ∈ ["note", "seen", "shout"],
      HelperName (declaring (.str "tool") sharing) functionClassRef .bare name) ∧
    ∀ free : String → Prop, (∀ name ∈ ["note", "seen", "shout"], free name) →
      ∀ sameName settable, D.Modest D.block free sameName settable fun _ => False := by
  obtain ⟨p, D, C, hf, hm, hleads, hplain, ⟨note, shout, hnote, hshout⟩, hfree, hmodest⟩ := sharing_meets
  have told : (perform (declaring (.str "tool") sharing) (.toLlm (some "d") "L" none)).1.outcome.isOk =
      true := by
    decide +kernel
  have hcarries := (hleads.helpless functionBase_start.rooted helpless_start).carries
  have hcall : ∃ k, (declaring (.str "tool") sharing).find? functionClassRef "call" =
      some (.made k, .ofObject (.bundled (.host .callFunction))) := by
    rw [hleads.find? functionBase_start.rooted (by decide)]
    exact ⟨0, rfl⟩
  have hv := sharedTool.eq_1.symm
  generalize declaring (.str "tool") sharing = w at *
  generalize sharedTool = v at *
  obtain ⟨answer, log, hl⟩ := exists_perform told
  rw [hv] at hl
  obtain ⟨n, text, hn, hcalls, -⟩ := hf.calls_toLlm hcarries hcall (hplain _ (by decide)) hl
  have hsub : ∀ name ∈ ["__new__", "__getattribute__", "__init_subclass__"],
      name ∈ "__init_subclass__" :: "__new__" :: Link.specials := by decide
  obtain ⟨k, s, t, hk, hbelow, hcarries'⟩ :=
    hf.below_toLlm hcarries (fun name hname => hplain name (hsub name hname)) hl
  obtain rfl : n = k := ClassRef.made.inj (Option.some.inj (hn.symm.trans hk))
  rw [Definition.atop_bare] at hcalls hcarries'
  exact ⟨n, p, D, C, s, t, note, shout, hn, hbelow, hm.after_toLlm hf hl, hcalls, hcarries', hnote, hshout,
    fun name hname => (hfree name hname).helperName (Machine.reserved_setNames hf.host), hmodest⟩

set_option maxRecDepth 100000 in
theorem confined_adaptedHeir : ∃ D free s, Confined adaptedHeir "M" D free ∧
    adaptedHeir.extras = [] ∧ adaptedHeir.objectIds = [] ∧
    (∀ name ∈ ["note", "seen", "shout"], Neutral name ∧ free name) ∧
    D.helper? "shout" = some (.ofClass, s) := by
  obtain ⟨n, p, D, C, s, t, note, shout, hn, hf, hm, hcalls, hcarries, hnote, hshout, hfree, hmodest⟩ :=
    sharedTool_carries
  have told : (perform sharedTool (.define "e" (.str "heir") none)).1.outcome.isOk = true ∧
      (perform declaredHeir (.toLlm (some "e") "M" (some "L"))).1.outcome.isOk = true ∧
      adaptedHeir.extras.isEmpty = true ∧ adaptedHeir.objectIds.isEmpty = true ∧
      ((Table.find? sharedTool.classIds "L").map fun c =>
        (Machine.reservedNames declaredHeir (World.classValue c)).contains "seen") = some false := by
    decide +kernel
  obtain ⟨hdefined, hadapted, hextras, hobjects, hseen⟩ := told
  have hw := declaredHeir.eq_1.symm
  have hu := adaptedHeir.eq_1.symm
  generalize sharedTool = v at *
  generalize declaredHeir = w at *
  generalize adaptedHeir = u at *
  obtain ⟨_, q, E, C', x, hv, he, hes, hbuilt, hhelp, hled, -⟩ := defining_meets hf.bundled hf.data
    hf.host hf.reads hf.bases hm.host hm.bases inheriting hdefined
  obtain rfl := hw.symm.trans hv
  have hbare (name : String) : E.helper? name = none := Definition.helper?_none fun scope => by
    rw [hhelp]
    cases scope <;> rfl
  have hrooted := hcalls.contextual.rooted
  replace hcalls := hled.callsWith hcalls
  replace hcarries := hled.carries hrooted hcarries
  obtain ⟨answer, log, hl⟩ := exists_perform hadapted
  rw [hu] at hl
  obtain ⟨m, text, hm', -, -, -, htitle⟩ := he.calls_toLlm hcarries hcalls.call (hbare _) hl
  have hdeclared := (hes.after_toLlm he hl).toDeclares
  have neutral : ∀ name ∈ ["note", "seen", "shout"], Neutral name := by
    have plain : ∀ name ∈ ["note", "seen", "shout"], name.startsWith "__" = false ∧ name ≠ "mro" := by
      decide +kernel
    exact fun name hn => neutral_of_startsWith (plain name hn).1 (plain name hn).2
  have free : ∀ name ∈ ["note", "seen", "shout"], HelperName w (.made n) D name := by
    intro name hname
    have hbelow := hfree name hname
    refine ⟨?_, hcalls.contextual.finds name (neutral name hname) hbelow, hbelow.unset,
      hbelow.undeclared⟩
    simp only [List.mem_cons, List.not_mem_nil, or_false] at hname
    rcases hname with rfl | rfl | rfl
    · exact .inr (by rw [hnote]; rfl)
    · rw [hn] at hseen
      exact .inl (Option.some.inj hseen)
    · exact .inr (by rw [hshout]; rfl)
  have hasked : ∀ name ∈ ["note", "seen"], name ∈ ["note", "seen", "shout"] := by decide
  have discreet (j : Nat) : (E.atop D).Discreet E.block (HelperName w (.made n) D) (u.Getters u j j)
      True False fun _ => False :=
    inheriting_discreet hbuilt hbare
      (fun name hn => ⟨neutral name (hasked name hn), free name (hasked name hn)⟩) (.inl rfl)
      (hmodest _ free True False)
  refine ⟨E.atop D, HelperName w (.made n) D, shout,
    .adapted he hcarries hcalls.call (hbare _) hl .refl rfl hdeclared rfl
      (fun j _ => discreet j) fun j hj => ?_, List.isEmpty_iff.mp hextras, List.isEmpty_iff.mp hobjects,
    fun name hn => ⟨neutral name hn, free name hn⟩, ?_⟩
  · obtain rfl : m = j := ClassRef.made.inj (Option.some.inj (hm'.symm.trans hj))
    exact ⟨text, htitle⟩
  · rw [Definition.helper?_atop_plain (by decide +kernel), hshout]
    rfl

theorem objects_to_themselves_sharing : ∃ u D free,
    Confined u "M" D free ∧ u.extras = [] ∧
    (∀ step ∈ interleaved, ∀ i, step.object? = some i → Table.find? u.objectIds i = none) ∧
    (∀ step ∈ interleaved, Plays u interleaved step) ∧
    outcomesOf (some "j") interleaved (performAll u interleaved).1 =
      outcomes u (interleaved.filter fun step => step.object? = some "j") := by
  obtain ⟨D, free, shout, confined, hx, ho, hfree, hshout⟩ := confined_adaptedHeir
  have hunnamed : ∀ step ∈ interleaved, ∀ i, step.object? = some i →
      Table.find? adaptedHeir.objectIds i = none := by
    intro _ _ i _
    rw [ho]
    rfl
  have ofM {i cls : String} (h : Step.new i cls ∈ interleaved) : cls = "M" := by
    simp only [interleaved, List.mem_cons, Step.new.injEq, reduceCtorEq, List.not_mem_nil, false_or,
      or_false] at h
    exact h.elim And.right And.right
  have called {i name : String} (args : List Literal) (named : Literal.Rows) (hname : name = "execute" ∨
      name = "call" ∨ Neutral name ∧ free name) :
      Plays adaptedHeir interleaved (.callObject i name args named) :=
    .call fun cls hin => ⟨D, free, ofM hin ▸ confined, hname⟩
  have hplays : ∀ step ∈ interleaved, Plays adaptedHeir interleaved step := by
    intro step hstep
    simp only [interleaved, List.mem_cons, List.not_mem_nil, or_false] at hstep
    rcases hstep with rfl | rfl | rfl | rfl | rfl | rfl
    · exact .new confined
    · exact called _ _ (.inr (.inr (hfree _ (by decide))))
    · exact .new confined
    · exact called _ _ (.inl rfl)
    · exact called _ _ (.inr (.inl rfl))
    · exact .help confined (hfree _ (by decide)).1 (hfree _ (by decide)).2 hshout
  exact ⟨adaptedHeir, D, free, confined, hx, hunnamed, hplays,
    (objects_to_themselves hx hunnamed hplays).1 "j"⟩

def titling : List Step :=
  [.define "d" (.str "tool") none,
    .execute (some "d") (.mk [("name", some .null)] none (.helper "tool_name" [.var "name"] [])),
    .toLlm (some "d") "L" none]

def retitled : List Step :=
  [.new "i" "L", .new "j" "L", .callObject "i" "execute" [] [("name", .str "other")],
    .callObject "j" "execute" [] []]

def outcomeText : Except Fault Answer → Option String
  | .ok (.str text) => some text
  | _ => none

set_option maxRecDepth 100000 in
/-- What a block declares on the class of its object is seen on other objects. -/
theorem objects_share_class :
    (outcomesOf (some "j") retitled (performAll (performAll start titling).2 retitled).1).map
        outcomeText = [none, some "other"] ∧
      (outcomes (performAll start titling).2 (retitled.filter fun step => step.object? = some "j")).map
        outcomeText = [none, some "tool"] := by
  decide +kernel

end Session

end Toolwright
