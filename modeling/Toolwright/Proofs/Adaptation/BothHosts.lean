import Toolwright.Proofs.Adaptation.Forgetting
import Toolwright.Proofs.Serving.Hosts

/-!
# Definitions adapted for both hosts

A definition that was adapted for a host of each kind executes its block on objects of the one class,
and on new helper objects in calls of the other one. What an execution gives, the call tells.
-/

namespace Toolwright

set_option autoImplicit false

namespace World

variable {w v : World} {D D' : Definition Stored} {n : Nat} {free : String → Prop}

theorem Contextual.congr (h : w.Contextual D n free) (hi : D'.instanceHelpers = D.instanceHelpers)
    (hc : D'.classHelpers = D.classHelpers) : w.Contextual D' n free := by
  have hsame : D'.helper? = D.helper? := by
    funext name
    unfold Definition.helper?
    rw [hi, hc]
  exact { h with
    finds := by
      unfold FindsHelper
      rw [hsame]
      exact h.finds
    specials := by
      rw [hsame]
      exact h.specials
    ofInstance := by
      rw [hi]
      exact h.ofInstance
    ofClass := by
      rw [hc]
      exact h.ofClass
    instanceBodies := by
      rw [hi]
      exact h.instanceBodies
    classBodies := by
      rw [hc]
      exact h.classBodies }

theorem Contextual.plain (h : w.Contextual D n free) {name : String} (hn : name ∈ Link.specials)
    (hd : D.helper? name = none) (k : Nat) (a : Attribute) :
    w.find? (.made n) name ≠ some (.made k, a) := by
  obtain ⟨j, hj⟩ := h.specials name hn
  rw [hj, hd]
  exact find?_builtIn_ne_made w .object name k a

end World

namespace Session

/-! ## New objects -/

theorem exec_new {w : World} {c : String} {n : Nat} (hc : Table.find? w.classIds c = some (.made n))
    (ho : w.isOpen (.made n) = true)
    (hm : ∀ k a, w.find? (.made n) "__new__" ≠ some (.made k, a)) (i : String) :
    (machine.step (.new i c)).exec w = Run.exec (do
      (Machine.nested 998).prepare (objectValue w.objects.length) [] []
      modify fun v => { v with
        objectIds := Table.insert i (objectValue w.objects.length) v.objectIds }
      return .null) (w.withObject n) := by
  have step : machine.step (.new i c) = (do
      let v ← (Machine.nested 999).invoke (World.classValue (← Run.classById c)) [] []
      modify fun w => { w with objectIds := Table.insert i v w.objectIds }
      return .null) := rfl
  rw [step, Run.exec_bind, exec_classById (b := w) (w := w) rfl, hc]
  dsimp only
  rw [Run.exec_bind, Machine.exec_helperObject (k := 998) ho hm]
  refine (Run.exec_bind _ _ _).symm.trans ?_
  simp only [bind_assoc, pure_bind]
  rfl

theorem perform_new {w : World} {c : String} {n : Nat} (hc : Table.find? w.classIds c = some (.made n))
    (ho : w.isOpen (.made n) = true)
    (hm : ∀ k a, w.find? (.made n) "__new__" ≠ some (.made k, a))
    (hi : ∀ k a, w.find? (.made n) "__init__" ≠ some (.made k, a)) (i : String) :
    (perform w (.new i c)).2 = (World.withObject { w with log := [] } n).named { w.names with
      objects := Table.insert i (objectValue w.objects.length) w.objectIds } := by
  let w₀ : World := { w with log := [] }
  have hcls : (w₀.withObject n).classOf (objectValue w.objects.length) = .made n := by
    simp [World.classOf, World.withObject, objectValue, w₀]
  have plain : ((Machine.nested 998).prepare (objectValue w₀.objects.length) [] []).exec
      (w₀.withObject n) = (.ok (), w₀.withObject n) :=
    World.exec_prepare_plain (Machine.nested 998) hcls hi
  rw [perform_eq, exec_new (w := w₀) hc ho hm i, Run.exec_bind, plain]
  rfl

/-! ## Executing -/

end Session

namespace World

variable {w v : World} {D D' : Definition Stored} {n o : Nat} {free : String → Prop}

/-- A class of which the objects execute what an object, a definition, stores, with helpers of a
definition. -/
structure ExecutesWith (w : World) (n o : Nat) (D : Definition Stored) (free : String → Prop) :
    Prop where
  contextual : w.Contextual D n free
  undeclared : ∀ name, free name → name ∉ declaredNames
  execute : w.find? (.made n) "execute" =
    some (.made n, .ofObject (.runs (.opaqueRef (.object o))))
  opens : w.isOpen (.made n) = true
  makes : ∀ k a, w.find? (.made n) "__new__" ≠ some (.made k, a)

theorem LeadsTo.executesWith (hl : w.LeadsTo v) (h : w.ExecutesWith n o D free) :
    v.ExecutesWith n o D free where
  contextual := hl.contextual h.contextual fun name hf =>
    hl.find? h.contextual.rooted (h.undeclared name hf)
  undeclared := h.undeclared
  execute := (hl.find? h.contextual.rooted (by decide)).trans h.execute
  opens := (hl.isOpen h.contextual.rooted).trans h.opens
  makes k a := by
    rw [hl.find? h.contextual.rooted (by decide)]
    exact h.makes k a

theorem ExecutesWith.mono (h : w.ExecutesWith n o D free) {free' : String → Prop}
    (hf : ∀ name, free' name → free name) : w.ExecutesWith n o D free' :=
  { h with
    contextual := h.contextual.mono hf
    undeclared := fun name hn => h.undeclared name (hf name hn) }

theorem ExecutesWith.onBothHosts {c : ClassRef} {t : Served} {p : Draft} {C : Nat → Prop}
    {apart : Nat → Prop} (h : w.ExecutesWith n t.definition D free) (hs : w.ServesWith c t D)
    (hd : w.Declares p D' C) (hp : p.object = t.definition)
    (hspecial : ∀ name ∈ Link.specials, D.helper? name = none)
    (hm : D.Modest D'.block free False True apart) (hx : (∃ r, apart r) → w.extras = []) :
    w.OnBothHosts n c t apart where
  toServes := hs.toServes
  execute := ⟨n, h.execute⟩
  plain name hn k x := ⟨h.contextual.plain hn (hspecial name hn) k x,
    hs.contextual.plain hn (hspecial name hn) k x⟩
  stores := by
    rw [← hp]
    exact hd.stores_same h.contextual hs.contextual (hm.mono fun _ hf => ⟨hf, trivial⟩) False.elim hx

end World

namespace Session

variable {w v w' v' : World} {d d' c c' : String} {p p' : Draft} {D D' B : Definition Stored}
  {C C' : Nat → Prop} {base base' : Option String} {b b' : ClassRef} {s : Shelf} {t : ParameterTable}
  {a : Nat} {answer answer' : Answer} {log log' : List Record} {config : Option ConfigDraft}

def FreeName (w : World) (b : ClassRef) (name : String) : Prop :=
  (Machine.reservedNames w (World.classValue b)).contains name = false ∧ w.find? b name = none ∧
    name ∉ declaredNames

/-- A name under which objects of a class below one with helpers find nothing but helpers: the class
has a helper there, or it has nothing and the host leaves the name to helpers. -/
structure HelperName (w : World) (b : ClassRef) (B : Definition Stored) (name : String) : Prop where
  free : (Machine.reservedNames w (World.classValue b)).contains name = false ∨ (B.helper? name).isSome
  finds : w.FindsHelper b B name
  unset : name ∉ setNames
  undeclared : name ∉ declaredNames

theorem FreeName.helperName {name : String} (h : FreeName w b name)
    (hset : ∀ key ∈ setNames, (Machine.reservedNames w (World.classValue b)).contains key = true) :
    HelperName w b .bare name where
  free := .inl h.1
  finds := ⟨0, h.2.1⟩
  unset hm := by
    have hr := h.1
    rw [hset name hm] at hr
    cases hr
  undeclared := h.2.2

theorem MeetsFunctionHost.executes_toLlm (h : MeetsFunctionHost w d p D C base b s t)
    (hb : w.Carries b B) (hmaker : D.helper? "__new__" = none)
    (hl : perform w (.toLlm (some d) c base) = (⟨.ok answer, log⟩, v)) :
    ∃ n, Table.find? v.classIds c = some (.made n) ∧
      v.ExecutesWith n p.object (D.atop B) (HelperName w b B) := by
  obtain ⟨u, text, names, rows, hlater, hv, -, -, htool, -⟩ :=
    perform_toLlm h.toHolds h.host h.bases (a := answer) (by rw [hl])
  rw [hl] at hv
  subst hv
  have hroot := hlater.rooted h.host.rooted
  have hcarries := (World.LeadsTo.refl.later hlater).carries h.host.rooted hb
  have hctx := htool.contextual h.bundled.nine_le (h.unchanged hlater).declares.toDrafts hroot
    hcarries.toHelps hb.reserved fun _ => Machine.not_reserved
  obtain ⟨own, hcls, hown⟩ := htool.tool
  have hmade : own "__new__" = none := hown.own_none (by decide) (by decide) (.inr hmaker)
  have hexecutes : u.ExecutesWith w.classes.length p.object (D.atop B) (HelperName w b B) :=
    { contextual := hctx.mono fun name hf => ⟨hf.free, by
        unfold World.FindsHelper
        rw [hlater.find? h.host.rooted]
        exact hf.finds, hf.unset⟩
      undeclared := fun name hf => hf.undeclared
      execute := hcls.find?_own hown.execute
      opens := hcls.opens
      makes := fun k x => by
        rw [hcls.find?_above hmade]
        exact hcarries.makes k x }
  exact ⟨_, (Table.find?_insert _ _ _ _).trans (if_pos rfl),
    (World.LeadsTo.refl.named _).executesWith hexecutes⟩

/-- What a definition was adapted to can be adapted to again: it has the parameters of the definition
then, and its helpers beside those of the class above. -/
theorem MeetsFunctionHost.below_toLlm (h : MeetsFunctionHost w d p D C base b s t)
    (hb : w.Carries b B)
    (hplain : ∀ name ∈ ["__new__", "__getattribute__", "__init_subclass__"], D.helper? name = none)
    (hl : perform w (.toLlm (some d) c base) = (⟨.ok answer, log⟩, v)) :
    ∃ n s' t', Table.find? v.classIds c = some (.made n) ∧
      MeetsFunctionHost v d p D C (some c) (.made n) s' t' ∧ v.Carries (.made n) (D.atop B) := by
  obtain ⟨u, text, names, rows, hlater, hv, -, -, htool, hrows⟩ :=
    perform_toLlm h.toHolds h.host h.bases (a := answer) (by rw [hl])
  rw [hl] at hv
  subst hv
  have hroot := hlater.rooted h.host.rooted
  have hdeclares := (h.unchanged hlater).declares
  have hreserved := Machine.reservedNames_later hlater h.host.rooted
  have hset := Machine.reserved_setNames h.host
  rw [← hreserved] at htool hset
  have hcarries := htool.carries h.bundled.nine_le hdeclares.toDrafts hroot
    ((World.LeadsTo.refl.later hlater).carries h.host.rooted hb) hset (hplain _ (by decide))
  obtain ⟨own, hcls, hown⟩ := htool.tool
  have above {name : String} (hs : name ∉ ClassPlan.standing) (hk : name ∉ setNames)
      (hn : D.helper? name = none) : u.find? (.made w.classes.length) name = w.find? b name := by
    rw [hcls.find?_above (hown.own_none hs hk (.inr hn)), hlater.find? h.host.rooted]
  have made : Table.find? (u.named { u.names with
      classes := Table.insert c (.made w.classes.length) w.classIds }).classIds c =
        some (.made w.classes.length) := (Table.find?_insert _ _ _ _).trans (if_pos rfl)
  have hroots := hcls.rooted hroot
  refine ⟨w.classes.length, ⟨w.cells.length, rows⟩, Machine.declaredTable (D.params.zip names) t, made, ?_,
    (World.LeadsTo.refl.named _).carries hroots hcarries⟩
  exact { hdeclares.named _ with
    named := (h.further (h.unchanged hlater)).named
    host :=
      { htool.furnished.methods.named _ with
        told := by
          obtain ⟨k, hk⟩ := h.host.told
          exact ⟨k, (above (by decide) (by decide) (hplain _ (by decide))).trans hk⟩
        fields := fun name hn => hcls.mem_attributeNames (by
          rw [hlater.attributeNames h.host.rooted]
          exact h.host.fields name hn)
        parameters := ⟨_, htool.furnished.parameters⟩
        shelf := htool.furnished.shelf.named _ }
    reads := fun k a => by
      show u.find? _ _ ≠ _
      rw [above (by decide) (by decide) (hplain _ (by decide))]
      exact h.reads k a
    bases := made
    shelfApart := by
      intro k hk hc
      have hold : k < w.cells.length := h.toDrafts.lt (by
        simp only [Draft.changes] at hc
        simp only [Draft.cells, List.mem_cons]
        omega)
      rcases List.mem_cons.mp hk with rfl | hk
      · exact Nat.lt_irrefl _ hold
      · obtain ⟨row, hrow, rfl⟩ := List.mem_map.mp hk
        rcases hrows row hrow with hm | hle
        · exact h.shelfApart _ (List.mem_cons_of_mem _ (List.mem_map_of_mem hm)) hc
        · exact absurd hold (Nat.not_lt_of_le hle) }

/-- What an object of a definition that was adapted for a function-calling host gives when it
executes, a call of the definition on a serving host tells, and it raises what the object raises. -/
theorem hosts_behave_alike (hf : MeetsFunctionHost w d p D C base b s t) (hb : w.Helpless b)
    (hl : perform w (.toLlm (some d) c base) = (⟨.ok answer, log⟩, v))
    (hm : MeetsServingHost w' d' p' D' C' base' b') (ha : w'.AnswersWith b' a)
    (hs : perform w' (.toMcp (some d') c' base' config) = (⟨.ok answer', log'⟩, v'))
    (hplace : p'.object = p.object) (hinstance : D'.instanceHelpers = D.instanceHelpers)
    (hclass : D'.classHelpers = D.classHelpers)
    (hspecial : ∀ name ∈ "__new__" :: Link.specials, D.helper? name = none) :
    ∃ n m text indent given u₀, Table.find? v.classIds c = some (.made n) ∧
      Table.find? v'.classIds c' = some (.made (m + 1)) ∧
      Configures { w' with log := [] } config given u₀ ∧
      (∀ m : Machine, (m.indentOf given).exec u₀ = (.ok indent, u₀)) ∧
      ∀ u p'' D'' C'' apart, v.LeadsTo u → v'.LeadsTo u → u.Declares p'' D'' C'' →
        p''.object = p.object → D.Modest D''.block (FreeName w b) False True apart →
        ((∃ r, apart r) → u.extras = []) →
        Table.find? u.classIds c = some (.made n) → Table.find? u.classIds c' = some (.made (m + 1)) →
        ∀ i named, "server_context" ∉ Table.keys named → ∃ u', (perform u (.new i c)).2 = u' ∧
          u'.Wraps n ⟨p.object, m, indent, text, a⟩ (Machine.nested 998)
            ((machine.step (.callObject i "execute" [] named)).exec { u' with log := [] })
            (perform u' (.callClass c' "call" [] named)).1.outcome := by
  have hmaker : D.helper? "__new__" = none := hspecial _ List.mem_cons_self
  have hsame : D'.helper? = D.helper? := by
    funext name
    unfold Definition.helper?
    rw [hinstance, hclass]
  obtain ⟨n, hn, hexecutes⟩ : ∃ n, Table.find? v.classIds c = some (.made n) ∧
      v.ExecutesWith n p.object D (FreeName w b) := by
    obtain ⟨n, hn, hexecutes⟩ := hf.executes_toLlm hb.carries hmaker hl
    rw [Definition.atop_bare] at hexecutes
    exact ⟨n, hn, hexecutes.mono fun name h => h.helperName (Machine.reserved_setNames hf.host)⟩
  obtain ⟨m, text, indent, given, u₀, hfound, hgiven, hindent, hserved⟩ :=
    hm.serves_toMcp ha (hsame ▸ hmaker) hs
  have hserves : v'.ServesWith (.made (m + 1)) ⟨p.object, m, indent, text, a⟩ D := by
    rw [← hplace]
    exact { hserved with contextual := hserved.contextual.congr hinstance.symm hclass.symm }
  refine ⟨n, m, text, indent, given, u₀, hn, hfound, hgiven, hindent, ?_⟩
  intro u p'' D'' C'' apart hleads hleads' hd hp hmodest hx hc hc' i named hnamed
  let made : World := { u with log := [] }
  let names : World.Names :=
    { u.names with objects := Table.insert i (objectValue u.objects.length) u.objectIds }
  let u' : World := (made.withObject n).named names
  have hlater : u.Later (made.withObject n) (fun _ => False) :=
    ((World.Later.refl u _).log []).withObjectOf n []
  have hu' : u.LeadsTo u' := (World.LeadsTo.refl.later hlater).named names
  have hexecuting := (hleads.trans hu').executesWith hexecutes
  have hserving := (hleads'.trans hu').servesWith hserves
  have hdeclared : u'.Declares p'' D'' C'' := (hd.unchanged hlater).declares.named names
  have hexecutingBefore := hleads.executesWith hexecutes
  have plain {name : String} (hn : name ∈ Link.specials) (k : Nat) (x : Attribute) :
      u.find? (.made n) name ≠ some (.made k, x) :=
    hexecutingBefore.contextual.plain hn (hspecial name (List.mem_cons_of_mem _ hn)) k x
  refine ⟨u', perform_new hc hexecutingBefore.opens hexecutingBefore.makes
    (plain (by decide)) i, ?_⟩
  have hboth := hexecuting.onBothHosts hserving hdeclared hp
    (fun name hn => hspecial name (List.mem_cons_of_mem _ hn)) hmodest hx
  have hobject : u'.NewObject u.objects.length n u.cells.length :=
    ⟨by simp [u', made, World.withObject, World.named], by simp [u', made, World.withObject, World.named]⟩
  have called : (perform u' (.callClass c' "call" [] named)).1.outcome =
      (outcome ((Machine.nested 999).callAttribute (World.classValue (.made (m + 1))) "call" [] named)
        u').1 := by
    show ((machine.step (.callClass c' "call" [] named)).exec u').1.bind
      (Answer.ofValue ((machine.step (.callClass c' "call" [] named)).exec u').2) = _
    rw [exec_callClass (show Table.find? u'.classIds c' = _ from hc')]
    rfl
  rw [called]
  show u'.Wraps _ _ _ ((machine.step (.callObject i "execute" [] named)).exec u') _
  rw [exec_callObject (show Table.find? u'.objectIds i = some (objectValue u.objects.length) from
    (Table.find?_insert _ _ _ _).trans (if_pos rfl))]
  exact World.call_wraps_execute hboth hobject 996 hnamed

theorem classAt_start :
    start.ClassAt 0 functionClass.name (.builtIn .object) (Table.find? functionClass.attributes) where
  cls := ⟨functionClass, rfl, rfl, rfl, fun _ => rfl⟩
  opens := by decide

def isHelper : Attribute → Bool
  | .ofObject (.forwards _) | .fixed _ => true
  | _ => false

theorem helpless_start : start.Helpless functionClassRef := by
  have none_helper : ∀ row ∈ functionClass.attributes, isHelper row.2 = false := by decide
  have found (name : String) (k : ClassRef) (a : Attribute)
      (h : start.find? functionClassRef name = some (k, a)) :
      isHelper a = false ∨ start.find? (.builtIn .object) name = some (k, a) := by
    rw [functionClassRef, classAt_start.find?] at h
    cases ho : Table.find? functionClass.attributes name with
    | none =>
      rw [ho] at h
      exact .inr h
    | some a' =>
      rw [ho] at h
      cases h
      exact .inl (none_helper _ (Table.mem_of_find? ho))
  exact {
    records := by
      intro k hk
      rw [functionClassRef, classAt_start.lineage] at hk
      obtain rfl : k = 0 := by simpa [World.lineage, World.above, Kind.above] using hk
      decide
    above := by decide
    makes := fun k x h => by cases h
    specials := by
      intro name hn
      simp only [Link.specials, List.mem_cons, List.not_mem_nil, or_false] at hn
      rcases hn with rfl | rfl | rfl | rfl | rfl <;> rfl
    ofInstance := by
      intro name k x h
      rcases found name k _ h with hh | hb
      · cases hh
      · exact (Machine.find?_builtIn_ne_helper start .object name k x).1 hb
    ofClass := by
      intro name k x h
      rcases found name k _ h with hh | hb
      · cases hh
      · exact (Machine.find?_builtIn_ne_helper start .object name k x).2 hb }

def sharing : List Builder :=
  [.help .ofInstance "note" (.mk [] none (.setAttr "seen" (.lit (.bool true)))),
    .help .ofClass "shout" (.mk [("text", none)] none (.cat [.var "text", .lit (.str "!")])),
    .execute (.mk [("text", none)] none (.list [.helper "note" [] [], .hasAttr "seen",
      .classHelper "shout" [.var "text"] []]))]

theorem sharing_modest {x : Value} (h : Definition.Built { name := x } sharing D)
    (hshout : ∃ block, D.helperBlock? .ofClass "shout" = some block) {free : String → Prop}
    (hfree : ∀ name ∈ ["note", "seen", "shout"], free name) (sameName settable : Prop) :
    D.Modest D.block free sameName settable fun _ => False where
  permits s hs u hu := by
    have asked : ∀ op ∈ sharing, ∀ block, op.block? = some block → ∀ u ∈ block.uses,
        u = .ofClass "shout" ∨
          ∃ name ∈ ["note", "seen"], u = .asked name ∨ u = .called name ∨ u = .written name := by
      decide
    have neutral : ∀ name ∈ ["note", "seen", "shout"], Neutral name := by
      have plain : ∀ name ∈ ["note", "seen", "shout"], name.startsWith "__" = false ∧ name ≠ "mro" := by
        decide +kernel
      exact fun name hn => neutral_of_startsWith (plain name hn).1 (plain name hn).2
    rcases h.of_mem_bodies hs with hm | ⟨op, hop, he⟩
    · cases hm
    rcases asked op hop _ he u hu with rfl | ⟨name, hname, rfl | rfl | rfl⟩
    · refine ⟨⟨neutral _ (by decide), hfree _ (by decide)⟩, fun s hs => ?_⟩
      obtain ⟨block, hblock⟩ := hshout
      obtain ⟨s', hs', -⟩ := Option.map_eq_some_iff.mp hblock
      unfold Definition.helper? at hs
      rw [hs'] at hs
      cases hs
    all_goals exact ⟨neutral _ (by grind), hfree _ (by grind)⟩
  apart _ _ h := h.elim

set_option maxRecDepth 100000 in
theorem sharing_meets : ∃ p D C,
    MeetsFunctionHost (declaring (.str "tool") sharing) "d" p D C none functionClassRef ⟨0, []⟩ [] ∧
    MeetsServingHost (declaring (.str "tool") sharing) "d" p D C none servingClassRef ∧
    start.LeadsTo (declaring (.str "tool") sharing) ∧
    (∀ name ∈ "__init_subclass__" :: "__new__" :: Link.specials, D.helper? name = none) ∧
    (∃ s s', D.helper? "note" = some (.ofInstance, s) ∧ D.helper? "shout" = some (.ofClass, s')) ∧
    (∀ name ∈ ["note", "seen", "shout"],
      FreeName (declaring (.str "tool") sharing) functionClassRef name) ∧
    ∀ free : String → Prop, (∀ name ∈ ["note", "seen", "shout"], free name) →
      ∀ sameName settable, D.Modest D.block free sameName settable fun _ => False := by
  have told : (perform start (.define "d" (.str "tool") none)).1.outcome.isOk = true := by
    decide +kernel
  obtain ⟨p, D, C, x, hf, hm, hbuilt, hhelp, hleads, hreserved⟩ := declaring_meets sharing told
  have hfree : ∀ name ∈ ["note", "seen", "shout"],
      FreeName (declaring (.str "tool") sharing) functionClassRef name := by
    have free : ∀ name ∈ ["note", "seen", "shout"],
        (Machine.reservedNames start (World.classValue functionClassRef)).contains name = false ∧
        (start.find? functionClassRef name).isNone = true ∧ name ∉ declaredNames := by
      decide +kernel
    intro name hn
    obtain ⟨hr, hf, hd⟩ := free name hn
    refine ⟨?_, ?_, hd⟩
    · rw [hreserved]
      exact hr
    · rw [hleads.find? functionBase_start.rooted hd]
      exact Option.isNone_iff_eq_none.mp hf
  refine ⟨p, D, C, hf, hm, hleads, ?_, ?_, hfree, fun _ =>
    sharing_modest hbuilt ⟨_, (hhelp .ofClass "shout").trans rfl⟩⟩
  case refine_2 =>
    obtain ⟨s, hs, -⟩ := Option.map_eq_some_iff.mp ((hhelp .ofInstance "note").trans rfl)
    obtain ⟨s', hs', -⟩ := Option.map_eq_some_iff.mp ((hhelp .ofClass "shout").trans rfl)
    have unhelped := Option.map_eq_none_iff.mp ((hhelp .ofClass "note").trans rfl)
    refine ⟨s, s', ?_, ?_⟩
    · unfold Definition.helper?
      rw [unhelped, hs]
      rfl
    · unfold Definition.helper?
      rw [hs']
      rfl
  intro name hn
  have unhelped : ∀ name ∈ "__init_subclass__" :: "__new__" :: Link.specials, ∀ scope ∈ [Scope.ofInstance, .ofClass],
      (lastHelper sharing scope name).isNone = true := by decide
  refine Definition.helper?_none fun scope => (hhelp scope name).trans ?_
  exact Option.isNone_iff_eq_none.mp (unhelped name hn scope (by cases scope <;> decide))

set_option maxRecDepth 100000 in
theorem hosts_behave_alike_sharing : ∃ w p D C v v' a log a' log' n m text indent,
    MeetsFunctionHost w "d" p D C none functionClassRef ⟨0, []⟩ [] ∧ w.Helpless functionClassRef ∧
    perform w (.toLlm (some "d") "L" none) = (⟨.ok a, log⟩, v) ∧
    MeetsServingHost v "d" p D C none servingClassRef ∧ v.AnswersWith servingClassRef answerClass ∧
    perform v (.toMcp (some "d") "M" none none) = (⟨.ok a', log'⟩, v') ∧
    (∀ name ∈ "__new__" :: Link.specials, D.helper? name = none) ∧
    D.Modest D.block (FreeName w functionClassRef) False True (fun _ => False) ∧
    ∃ u', (perform v' (.new "i" "L")).2 = u' ∧
      u'.Wraps n ⟨p.object, m, indent, text, answerClass⟩ (Machine.nested 998)
        ((machine.step (.callObject "i" "execute" [] [("text", .str "ho")])).exec { u' with log := [] })
        (perform u' (.callClass "M" "call" [] [("text", .str "ho")])).1.outcome := by
  have told : (perform (declaring (.str "tool") sharing) (.toLlm (some "d") "L" none)).1.outcome.isOk =
        true ∧
      (perform (perform (declaring (.str "tool") sharing) (.toLlm (some "d") "L" none)).2
        (.toMcp (some "d") "M" none none)).1.outcome.isOk = true := by
    decide +kernel
  obtain ⟨p, D, C, hf, hm, hleads, hplain, -, hfree, hmodest⟩ := sharing_meets
  have hmodest := hmodest _ hfree False True
  have hplain := fun name hn => hplain name (List.mem_cons_of_mem _ hn)
  obtain ⟨answer, log, hl⟩ := exists_perform told.1
  obtain ⟨answer', log', hs⟩ := exists_perform told.2
  have hm' := hm.after_toLlm hf hl
  have hhelpless := hleads.helpless functionBase_start.rooted helpless_start
  have hanswers := (hleads.trans (hf.leadsTo_toLlm hl)).answersWith servingBase_start.rooted
    answersWith_start
  have hdeclared := (hm'.holds_toMcp (show (perform _ (.toMcp (some "d") "M" none none)).1.outcome =
    .ok answer' by rw [hs])).toDeclares
  generalize (perform (perform (declaring (.str "tool") sharing) (.toLlm (some "d") "L" none)).2
    (.toMcp (some "d") "M" none none)).2 = v' at hs hdeclared
  generalize (perform (declaring (.str "tool") sharing) (.toLlm (some "d") "L" none)).2 = v
    at hl hs hm' hanswers
  obtain ⟨n, m, text, indent, given, u₀, hn, hc, -, -, halike⟩ :=
    hosts_behave_alike hf hhelpless hl hm' hanswers hs rfl rfl rfl hplain
  have hboth : Table.find? v'.classIds "L" = some (.made n) := by
    obtain ⟨made, hids⟩ := hm'.classIds_toMcp hs
    rw [hids, Table.find?_insert, if_neg (by decide)]
    exact hn
  have alike := halike v' p D C _ (hm'.leadsTo_toMcp hs) World.LeadsTo.refl hdeclared rfl hmodest
    (fun hx => hx.elim fun _ => False.elim) hboth hc "i" [("text", .str "ho")] (by decide)
  exact ⟨_, p, D, C, v, v', answer, log, answer', log', n, m, text, indent, hf, hhelpless, hl, hm',
    hanswers, hs, hplain, hmodest, alike⟩

/-- A session in which a block looks for an attribute that the class of one host has. -/
def definitionSought : List Step :=
  [.define "d" (.str "tool") none, .execute (some "d") (.mk [] none (.hasAttr "definition")),
    .toLlm (some "d") "L" none, .toMcp (some "d") "M" none none, .new "i" "L",
    .callObject "i" "execute" [] [], .callClass "M" "call" [] []]

set_option maxRecDepth 100000 in
/-- What one host has on its objects a block does not find on the other one. -/
theorem definition_sought :
    ((replies 30 definitionSought).map fun reply => match reply.outcome with
      | .ok (.bool found) => if found then "True" else "False"
      | _ => (answerText reply).getD "") = ["", "True", "", "", "", "True", "False"] := by
  decide +kernel

end Session

end Toolwright
