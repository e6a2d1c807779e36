import Toolwright.Proofs.Isolation.Interleaving
import Toolwright.Proofs.Publication.Getters

/-!
# Adapted definitions side by side

Classes that definitions with the same block and the same helpers were adapted to execute alike, and
classes that serve such definitions answer alike.
-/

/-!
## Steps that change nothing

Calls of serving tools, and calls of helpers that take no context through their classes, have the
same outcome whenever they are performed, and what was there before is there afterwards.
-/

namespace Toolwright

set_option autoImplicit false

namespace World

/-- Classes that find helpers under a name which take no context and run the same block. -/
structure HelpsAlone (w v : World) (σ : Nat → Nat) (c c' : Nat) (name : String) : Prop where
  object : Kind.object.attribute? name = none
  type : Kind.type.attribute? name = none
  helper : ∃ k k' r body, w.find? (.made c) name = some (k, .fixed (routineValue r)) ∧
    v.find? (.made c') name = some (k', .fixed (routineValue (σ r))) ∧ w.RunsAlone r body ∧
    v.RunsAlone (σ r) body ∧ ∀ u ∈ body.uses, AsksAlone u

variable {w v a b : World} {σ : Nat → Nat} {c c' r : Nat} {name : String} {body : Block}

def Ahead.sharing (h : a.Ahead b σ) (r : Nat) : Link := { h.link with shared := (· = r) }

theorem Ahead.sharing_linked (h : a.Ahead b σ) (hr : a.RunsAlone r body)
    (hr' : b.RunsAlone (σ r) body) (hu : ∀ u ∈ body.uses, AsksAlone u) :
    (h.sharing r).Linked a b where
  sound :=
    { contexts := False.elim
      helper_present := fun _ => False.elim
      helper := fun _ => False.elim
      shared := by
        intro q hq
        obtain rfl : q = r := hq
        have hmoved : h.toRenaming.routine q = σ q :=
          moved_below (List.getElem?_eq_some_iff.mp hr).1
        exact ⟨body, hr, (congrArg (b.handles[·]?) hmoved).trans hr', hu⟩
      cell_store := h.linked.sound.cell_store
      cell_new := h.linked.sound.cell_new
      cell_shift := h.linked.sound.cell_shift
      bound_new := h.linked.sound.bound_new
      logFrom := h.linked.sound.logFrom }
  left := h.linked.left
  right := h.linked.right
  cells := h.linked.cells
  within := by
    intro n x hn hx
    rw [List.getElem?_eq_none hn] at hx
    cases hx
  cell_shift := h.linked.cell_shift
  handles := h.linked.handles
  routine_shift := h.linked.routine_shift
  mark_shift := h.linked.mark_shift
  extras := h.linked.extras

theorem HelpsAlone.told (h : w.HelpsAlone v σ c c' name) (ha : w.Extends a) (hb : v.Extends b)
    (hg : a.Ahead b σ) (k : Nat) (args : List Literal) (named : Literal.Rows) :
    let x := (Machine.nested k).callAttribute (classValue (.made c)) name args named
    let y := (Machine.nested k).callAttribute (classValue (.made c')) name args named
    (Session.outcome x a).1.map Answer.unmarked = (Session.outcome y b).1.map Answer.unmarked ∧
      b.Grown (y.exec b).2 := by
  obtain ⟨j, j', r, body, hf, hf', hr, hr', hu⟩ := h.helper
  have hl := hg.sharing_linked (ha.handle hr) (hb.handle hr') hu
  have hmoved : (hg.sharing r).ρ.routine r = σ r :=
    moved_below (List.getElem?_eq_some_iff.mp (ha.handle hr)).1
  have hm := Link.faithful_nested (hg.sharing r) k
  have reached : (hg.sharing r).Agree ((hg.sharing r).extent a) (hg.sharing r).Reached
      ((Machine.nested k).reach (classValue (.made c)) name)
      ((Machine.nested k).reach (classValue (.made c')) name) := by
    intro a₁ b₁ hl₁ _
    unfold Link.Alike
    rw [Link.reach_class h.object h.type, Link.reach_class h.object h.type,
      World.find?_congr (hl₁.left.classes.trans ha.classes),
      World.find?_congr (hl₁.right.classes.trans hb.classes), hf, hf']
    refine .ok hl₁ (Extent.Below.refl _) ?_
    have shared := hl₁.reached_shared (r := r) rfl
    rwa [hmoved] at shared
  have agree := Link.callAttribute_of_reach (Q := (hg.sharing r).Reached) reached
    (fun he hq => hq.mono he) (fun hq hargs => hm.use hq hargs) args named
  obtain ⟨htold, hend⟩ := (agree a b hl (Extent.Below.refl _)).told hg.nameless
  refine ⟨htold, hend.right.grown (World.Grown.refl b) fun n hn => ?_⟩
  rw [hn]
  exact Nat.le_of_eq (hg.linked.sound.cell_shift 0).symm

end World

namespace Session

variable {w v : World} {σ : Nat → Nat} {cls cls' name : String}

theorem unmoved_of_told {step step' : Step} {x y : Run Value} (hσ : World.Permutes σ w v)
    (hx : ∀ a : World, w.Extends a → a.classIds = w.classIds →
      (machine.step step).exec a = x.exec a)
    (hy : ∀ b : World, v.Extends b → b.classIds = v.classIds →
      (machine.step step').exec b = y.exec b)
    (h : ∀ a b, w.Extends a → v.Extends b → a.Ahead b σ →
      (outcome x a).1.map Answer.unmarked = (outcome y b).1.map Answer.unmarked ∧
        b.Grown (y.exec b).2) : Unmoved w v step step' := by
  intro b hb hab hclasses
  have houtcome (w : World) (step : Step) : (perform w step).1.outcome =
      (outcome (machine.step step) { w with log := [] }).1 := rfl
  have ha₀ : w.Extends { w with log := [] } := { World.Extends.refl w with }
  have hb₀ : v.Extends { b with log := [] } := { hb with }
  obtain ⟨htold, hgrown⟩ := h _ _ ha₀ hb₀ { hσ.ahead hb hab with }
  rw [houtcome, houtcome, perform_eq, World.outcome_eq, World.outcome_eq, hx _ ha₀ rfl,
    hy _ hb₀ hclasses]
  exact ⟨htold.symm, ((World.Grown.refl b).log []).trans hgrown⟩

theorem unmoved_call {c c' : ClassRef} {t t' : Served} {apart : Nat → Prop}
    (hσ : World.Permutes σ w v) (hc : Table.find? w.classIds cls = some c)
    (hc' : Table.find? v.classIds cls' = some c') (hs : w.ServesAlike v σ c c' t t' apart)
    (args : List Literal) (named : Literal.Rows) :
    Unmoved w v (.callClass cls "call" args named) (.callClass cls' "call" args named) := by
  refine unmoved_of_told hσ (fun _ _ ha => exec_callClass (ha ▸ hc) _ _ _)
    (fun _ _ hb => exec_callClass (hb ▸ hc') _ _ _) fun a b ha hb hg => ?_
  have told := World.call_alike hs ha hb hg 996 args named
  exact ⟨congrArg (Except.map Answer.unmarked) told.told, told.grown⟩

theorem unmoved_helper {c c' : Nat} (hσ : World.Permutes σ w v)
    (hc : Table.find? w.classIds cls = some (.made c))
    (hc' : Table.find? v.classIds cls' = some (.made c')) (h : w.HelpsAlone v σ c c' name)
    (args : List Literal) (named : Literal.Rows) :
    Unmoved w v (.callClass cls name args named) (.callClass cls' name args named) :=
  unmoved_of_told hσ (fun _ _ ha => exec_callClass (ha ▸ hc) _ _ _)
    (fun _ _ hb => exec_callClass (hb ▸ hc') _ _ _) fun _ _ ha hb hg => h.told ha hb hg 999 args named

theorem exec_callHelperClass {w : World} {i : String} {c k : ClassRef} {h : Nat}
    (hi : Table.find? w.classIds i = some c)
    (hh : w.find? c "helper_class" = some (k, .value (World.classValue (.made h))))
    (name : String) (args : List Literal) (named : Literal.Rows) :
    (machine.step (.callHelperClass i name args named)).exec w =
      ((Machine.nested 999).callAttribute (World.classValue (.made h)) name args named).exec w := by
  have found : (Run.classById i).exec w = (.ok c, w) := by
    rw [exec_classById (b := w) (w := w) rfl, hi]
  have asked : ((Machine.nested 999).ask (World.classValue c) "helper_class").exec w =
      (.ok (World.classValue (.made h)), w) := by
    unfold Machine.ask
    rw [Run.exec_bind, Link.reach_class (by decide) (by decide), hh]
    rfl
  have step : machine.step (.callHelperClass i name args named) = (do
      let helperClass ← (Machine.nested 999).ask (World.classValue (← Run.classById i)) "helper_class"
      (Machine.nested 999).callAttribute helperClass name args named) := rfl
  rw [step, Run.exec_bind, found]
  dsimp only
  rw [Run.exec_bind, asked]

theorem unmoved_helperClass {c c' k k' : ClassRef} {h h' : Nat} (hσ : World.Permutes σ w v)
    (hc : Table.find? w.classIds cls = some c) (hc' : Table.find? v.classIds cls' = some c')
    (hh : w.find? c "helper_class" = some (k, .value (World.classValue (.made h))))
    (hh' : v.find? c' "helper_class" = some (k', .value (World.classValue (.made h'))))
    (hs : w.HelpsAlone v σ h h' name) (args : List Literal) (named : Literal.Rows) :
    Unmoved w v (.callHelperClass cls name args named) (.callHelperClass cls' name args named) := by
  refine unmoved_of_told hσ (fun a ha hclasses => ?_) (fun b hb hclasses => ?_)
    fun a b ha hb hg => hs.told ha hb hg 999 args named
  · exact exec_callHelperClass (hclasses ▸ hc) ((World.find?_congr ha.classes _ _).trans hh) _ _ _
  · exact exec_callHelperClass (hclasses ▸ hc') ((World.find?_congr hb.classes _ _).trans hh') _ _ _

end Session

/-! ## Adapted definitions -/

namespace World

variable {w v : World} {p p' : Draft} {D D' E E' : Definition Stored} {C C' : Nat → Prop}
  {n n' o : Nat} {free free' : String → Prop} {apart : Nat → Prop} {σ : Nat → Nat} {name : String}

theorem Shows.unique {x y : Value} (h : w.Shows o name x) (h' : w.Shows o name y) : x = y := by
  obtain ⟨n, k, of, hc, hf, hx⟩ := h.shown
  obtain ⟨n', k', of', hc', hf', hy⟩ := h'.shown
  obtain rfl : n = n' := ClassRef.made.inj (hc.symm.trans hc')
  obtain rfl : of = of' := by
    rw [hf] at hf'
    cases hf'
    rfl
  exact Option.some.inj (hx.symm.trans hy)

theorem Declares.of_shows_block (h : w.Declares p D C) {r : Nat}
    (hr : w.Shows p.object "execute_block" (routineValue r)) :
    ∃ s, D.block = some s ∧ s.handle = r := by
  have hshown := hr.unique h.shows_block
  cases hs : D.block with
  | none =>
    rw [hs] at hshown
    cases hshown
  | some s =>
    rw [hs] at hshown
    cases hshown
    exact ⟨s, rfl, rfl⟩

/-- Two definitions store the same block, as functions that stand for each other, or none of them
stores one: then they say so alike. -/
structure StoresAs (w v : World) (D D' : Definition Stored) (σ : Nat → Nat) : Prop where
  block : D'.block = D.block.map (Stored.moved σ)
  unset : D.block = none → Machine.noBlockFault v D'.name = Machine.noBlockFault w D.name

theorem StoresAs.refl (w : World) (D : Definition Stored) : w.StoresAs w D D id where
  block := by
    rw [Stored.moved_id, Option.map_id]
    rfl
  unset _ := rfl

theorem StoresAs.alike (hs : w.StoresAs v D D' σ) (h : w.Declares p D C) (h' : v.Declares p' D' C')
    {q : Nat → Prop} (hq : ∀ s, D.block = some s → q s.handle) :
    w.StoreAlike v p.object p'.object fun r r' => r' = σ r ∧ q r := by
  have hblock := h.shows_block
  have hblock' := h'.shows_block
  rw [hs.block] at hblock'
  cases hd : D.block with
  | some s =>
    rw [hd] at hblock hblock'
    exact .block hblock hblock' ⟨rfl, hq s hd⟩
  | none =>
    rw [hd] at hblock hblock'
    refine .nothing (fun m u hu => Machine.exec_noBlock h.data (h.values _ List.mem_cons_self).1
      hblock h.shows_name m u hu) fun m u hu => ?_
    rw [← hs.unset hd]
    exact Machine.exec_noBlock h'.data (h'.values _ List.mem_cons_self).1 hblock' h'.shows_name m u hu

theorem StoreAlike.mono {d d' : Nat} {q q' : Nat → Nat → Prop} (h : w.StoreAlike v d d' q)
    (hq : ∀ r r', q r r' → q' r r') : w.StoreAlike v d d' q' := by
  cases h with
  | block h h' hp => exact .block h h' (hq _ _ hp)
  | nothing h h' => exact .nothing h h'

/-! ## Function-calling hosts -/

/-- A class that executes with helpers of a definition, and is called and named as the host does it. -/
structure CallsWith (w : World) (n o : Nat) (D : Definition Stored) (free : String → Prop) : Prop
    extends w.ExecutesWith n o D free where
  call : ∃ k, w.find? (.made n) "call" = some (.made k, .ofObject (.bundled (.host .callFunction)))
  toolName : ∃ k, w.find? (.made n) "tool_name" =
    some (.made k, .ofClass (.bundled (.host .functionName)))
  description : ∃ k, w.find? (.made n) "description" =
    some (.made k, .ofClass (.bundled (.host .description)))

theorem LeadsTo.callsWith (hl : w.LeadsTo v) (h : w.CallsWith n o D free) :
    v.CallsWith n o D free where
  toExecutesWith := hl.executesWith h.toExecutesWith
  call := by
    rw [hl.find? h.contextual.rooted (by decide)]
    exact h.call
  toolName := by
    rw [hl.find? h.contextual.rooted (by decide)]
    exact h.toolName
  description := by
    rw [hl.find? h.contextual.rooted (by decide)]
    exact h.description

theorem CallsWith.executes (h : w.CallsWith n o D free) : w.Executes n o :=
  ⟨⟨n, h.execute⟩, h.call, h.toolName, h.opens, h.makes⟩

/-- Getters that tell the same of two classes: their names, and their descriptions if these are one
value in which nothing can change. -/
def Getters (w v : World) (n n' : Nat) (name : String) : Prop :=
  name = "tool_name" ∨ name = "description" ∧ ∃ x : Value, x.Closed ∧
    Describes (w.own? (.made n) "_description") x ∧ Describes (v.own? (.made n') "_description") x

theorem Getters.unclaimed (h : w.Getters v n n' name) : Unclaimed name := by
  rcases h with rfl | ⟨rfl, -⟩
  · exact ⟨by decide, by decide⟩
  · exact ⟨by decide, by decide⟩

theorem Getters.left (h : w.Getters v n n' name) : w.Getters w n n name :=
  h.imp_right fun ⟨he, x, hx, hl, _⟩ => ⟨he, x, hx, hl, hl⟩

theorem tells_name {text : String} (h : w.own? (.made n) "_name" = some (.value (.str text))) :
    w.Tells n (.bundled (.host .functionName)) (w.titleOf (w.className (.made n)) (.str text)) := by
  intro m u hu
  have hown : Describes (u.own? (.made n) "_name") (.str text) := .inl ((own?_congr hu _ _).trans h)
  rw [← className_congr hu]
  exact Machine.exec_toolNameOf (C := fun _ => False) m (fun _ => False.elim) hown trivial

theorem tells_description {x : Value} (h : Describes (w.own? (.made n) "_description") x) :
    w.Tells n (.bundled (.host .description)) x := by
  intro m u hu
  rw [← own?_congr hu] at h
  exact Machine.exec_ownValue h

theorem CallsWith.tells (h : w.CallsWith n o D free) {o' : Nat} (h' : v.CallsWith n' o' D' free')
    (hc : v.className (.made n') = w.className (.made n))
    (hn : ∃ text, w.own? (.made n) "_name" = some (.value (.str text)) ∧
      v.own? (.made n') "_name" = some (.value (.str text)))
    (hname : w.Getters v n n' name) : w.TellAlike v n n' name := by
  rcases hname with rfl | ⟨rfl, x, hx, hl, hr⟩
  · obtain ⟨text, hl, hr⟩ := hn
    obtain ⟨k, hk⟩ := h.toolName
    obtain ⟨k', hk'⟩ := h'.toolName
    have hright := tells_name hr
    rw [hc] at hright
    have hclosed : (w.titleOf (w.className (.made n)) (.str text)).Closed := by
      unfold titleOf
      split
      · trivial
      · trivial
    exact .intro hk hk' (tells_name hl) hright hclosed
  · obtain ⟨k, hk⟩ := h.description
    obtain ⟨k', hk'⟩ := h'.description
    exact .intro hk hk' (tells_description hl) (tells_description hr) hx

/-- Classes of which the definitions have the same helpers execute alike if the same block is stored
now, and it asks for little. -/
theorem CallsWith.alike (h : w.CallsWith n p.object D free) (h' : v.CallsWith n' p'.object D' free')
    (hσ : D.HelpsAs D' σ) (hd : w.Declares p E C) (hd' : v.Declares p' E' C')
    (hE : w.StoresAs v E E' σ)
    (hm : D.Discreet E.block (fun name => free name ∧ free' name) (w.Getters v n n') True False apart)
    (hc : v.className (.made n') = w.className (.made n))
    (hn : ∃ text, w.own? (.made n) "_name" = some (.value (.str text)) ∧
      v.own? (.made n') "_name" = some (.value (.str text)))
    (hx : w.extras = [] ∧ v.extras = []) : w.ExecutesAlike v σ n n' p.object p'.object apart where
  left := h.executes
  right := h'.executes
  named := by
    obtain ⟨text, hl, hr⟩ := hn
    rw [hl, hr]
  closed := by
    obtain ⟨text, hl, -⟩ := hn
    intro x hx
    rw [hl] at hx
    cases hx
    exact ⟨_, rfl, trivial⟩
  className := hc
  unset := hx
  stores := by
    have hstores := hE.alike (q := fun _ => True) hd hd' fun _ _ => trivial
    exact hstores.mono fun _ _ hr => hr.1
  helpers := h.contextual.same_stored h'.contextual hσ hd hd' hE.block
    (fun _ hg => ⟨hg.unclaimed, h.tells h' hc hn hg⟩) hm (fun _ => hc.symm) (fun _ => hx)
    fun _ => hd.of_shows_block

theorem CallsWith.callable (h : w.CallsWith n o D free) {o' : Nat} (h' : v.CallsWith n' o' D' free')
    (hσ : D.HelpsAs D' σ) (hname : name = "execute" ∨ name = "call" ∨
      Neutral name ∧ free name ∧ free' name) : w.Callable v σ n n' name := by
  rcases hname with rfl | rfl | ⟨hn, hf, hf'⟩
  · exact .execute
  · exact .call
  · exact .free (h.contextual.free_name h'.contextual hσ hn hf hf')

theorem Contextual.helpsAlone (h : w.Contextual D n free) (h' : v.Contextual D' n' free')
    (hσ : D.HelpsAs D' σ) (hn : Neutral name) (hf : free name) (hf' : free' name) {s : Stored}
    (hs : D.helper? name = some (.ofClass, s)) (hu : ∀ u ∈ s.block.uses, AsksAlone u) :
    w.HelpsAlone v σ n n' name where
  object := hn.unclaimed _ (by simp)
  type := hn.unclaimed _ (by simp)
  helper := by
    obtain ⟨k, hfound⟩ := h.finds name hn hf
    obtain ⟨k', hfound'⟩ := h'.finds name hn hf'
    rw [hσ.helper?, hs] at hfound'
    rw [hs] at hfound
    have hmoved : D'.helper? name = some (.ofClass, s.moved σ) := by rw [hσ.helper?, hs]; rfl
    exact ⟨_, _, s.handle, s.block, hfound, hfound', h.classBodies _ (D.mem_classHelpers hs),
      h'.classBodies _ (D'.mem_classHelpers hmoved), hu⟩

/-! ## Serving hosts -/

theorem ServesWith.alike {c c' : ClassRef} {t t' : Served} (h : w.ServesWith c t D)
    (h' : v.ServesWith c' t' D') (hσ : D.HelpsAs D' σ) (hd : w.Declares p E C)
    (hd' : v.Declares p' E' C') (hp : p.object = t.definition) (hp' : p'.object = t'.definition)
    (hE : w.StoresAs v E E' σ) (hm : D.Modest E.block (fun _ => True) True False apart)
    (hi : t'.indent = t.indent)
    (ha : v.className (.made t'.answerClass) = w.className (.made t.answerClass))
    (hh : v.className (.made t'.helperClass) = w.className (.made t.helperClass))
    (hx : (∃ r, apart r) → w.extras = [] ∧ v.extras = []) : w.ServesAlike v σ c c' t t' apart where
  left := h.toServes
  right := h'.toServes
  indent := hi
  answers := ha
  helpers := hh
  stores := by
    rw [← hp, ← hp']
    refine hE.alike hd hd' fun s hblock => ?_
    exact h.contextual.same_stored h'.contextual hσ hd hd' hE.block (fun _ => False.elim)
      (hm.mono fun _ _ => ⟨trivial, trivial⟩).discreet (fun _ => hh.symm) hx
      fun r hr => ⟨s, hblock, hr.symm⟩

end World

/-! ## Adapting -/

namespace Session

variable {w v : World} {d c : String} {p : Draft} {D B : Definition Stored} {C : Nat → Prop}
  {base : Option String} {b : ClassRef} {s : Shelf} {t : ParameterTable} {answer : Answer}
  {log : List Record}

/-- A definition that was adapted for a function-calling host, to a class that takes calls as the host
does, is executed and called. -/
theorem MeetsFunctionHost.calls_toLlm (h : MeetsFunctionHost w d p D C base b s t)
    (hb : w.Carries b B)
    (hcall : ∃ k, w.find? b "call" = some (.made k, .ofObject (.bundled (.host .callFunction))))
    (hmaker : D.helper? "__new__" = none)
    (hl : perform w (.toLlm (some d) c base) = (⟨.ok answer, log⟩, v)) :
    ∃ n text, Table.find? v.classIds c = some (.made n) ∧
      v.CallsWith n p.object (D.atop B) (HelperName w b B) ∧ w.textOf D.name = .ok text ∧
      v.className (.made n) = Naming.className text "" ∧
      v.own? (.made n) "_name" = some (.value (.str text)) := by
  obtain ⟨n, hn, hexecutes⟩ := h.executes_toLlm hb hmaker hl
  obtain ⟨u, text, names, rows, hlater, hv, htext, -, htool, -⟩ :=
    perform_toLlm h.toHolds h.host h.bases (a := answer) (by rw [hl])
  rw [hl] at hv
  obtain rfl : n = w.classes.length := by
    subst hv
    exact (ClassRef.made.inj (Option.some.inj
      (((Table.find?_insert _ _ _ _).trans (if_pos rfl)).symm.trans hn))).symm
  obtain ⟨own, hcls, hown⟩ := htool.tool
  have hcalls : own "call" = none := by
    obtain ⟨k, hk⟩ := hcall
    exact hown.own_none (by decide) (by decide)
      (.inl (Machine.mem_reservedNames (by decide +kernel) (World.mem_attributeNames hk)))
  refine ⟨_, text, hn, ⟨hexecutes, ?_, ?_, ?_⟩, htext, ?_, ?_⟩
  all_goals subst hv
  · obtain ⟨k, hk⟩ := hcall
    refine ⟨k, ?_⟩
    show u.find? _ _ = _
    rw [hcls.find?_above hcalls, hlater.find? h.host.rooted, hk]
  · exact htool.furnished.methods.finds _ (show ("tool_name", HostMethod.functionName) ∈
      functionMethods by decide)
  · exact htool.furnished.methods.finds _ (show ("description", HostMethod.description) ∈
      functionMethods by decide)
  · exact hcls.className
  · exact (hcls.own? _).trans hown.name

end Session

end Toolwright
