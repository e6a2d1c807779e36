import Toolwright.Proofs.Isolation.WithoutHelpers
import Toolwright.Proofs.Publication.Agreement

/-!
# Helpers that disturb nothing

What a definition became does not depend on its helpers, but for these: the class answers as the one
that the same definition becomes without them. The class has each helper of which the name is not taken
already, and is told of the others.
-/

namespace Toolwright

set_option autoImplicit false

theorem Kind.object_attribute? {name : String} (hn : name.startsWith "__" = false) :
    Kind.object.attribute? name = none := by
  by_cases hm : name = "mro"
  · subst hm
    decide
  · exact (neutral_of_startsWith hn hm).unclaimed .object (by simp)

theorem own_ordinary : ∀ key ∈ ["_name", "_description", "_parameters", "definition", "execute"],
    key.startsWith "__" = false := by
  decide +kernel

theorem hooks_special : ∀ key ∈ ["__getattribute__", "__setattr__", "__init__", "__new__"],
    key.startsWith "__" = true := by
  decide +kernel

namespace World

/-- Below the class objects are made, are set and take mappings as below the one of the host, and neither
the block of the definition nor what the class has done to objects asks anything. -/
structure Quiet (w : World) (b : ClassRef) (D : Definition Stored) : Prop where
  call : ∃ k, w.find? b "call" = some (.made k, .ofObject (.bundled (.host .callFunction)))
  plain : ∀ k, .builtIn k ∈ w.lineage b → k = .object
  unset : w.extras = []
  block : ∀ st, D.block = some st → ∀ u ∈ st.block.uses, AsksNothing u
  sets : w.InertHook b "__setattr__"
  prepares : w.InertHook b "__init__"
  makes : ∀ n a, w.find? b "__new__" = some (.made n, a) →
    (∃ x, a = .value x ∧ Uncallable x) ∨ ∃ k name, a = .slot k name

/-- Helpers of which the names are taken by the class above can be warned of: there are none, or no warnings
are kept, or the name of the tool can be printed. -/
def Warnable (w : World) (b : ClassRef) (D : Definition Stored) : Prop :=
  (∃ name, (D.helper? name).isSome ∧
    (name ∈ w.attributeNames b ∨ name = "execute" ∨ name = "definition")) →
  w.logFrom ≤ 30 → ∃ tool, w.printedOf D.name = .ok tool

def sitesBelow (w : World) (b : ClassRef) (p : Draft) (D : Definition Stored) : HelperSites :=
  p.sites w (D.freeNames (Machine.reservedNames w (classValue b)))

end World

theorem Definition.Ordinary.helper?_none {w : World} {p : Draft} {D : Definition Stored}
    {C : Nat → Prop} {name : String} (ho : D.Ordinary) (h : w.Declares p D C)
    (hn : name.startsWith "__" = true) : D.helper? name = none := by
  rw [← Definition.find?_merged h.classNames]
  refine Table.find?_eq_none fun hm => ?_
  rw [ho name hm] at hn
  cases hn

theorem Table.mem_keys_iff {κ β : Type} [DecidableEq κ] {t : List (κ × β)} {k : κ} :
    k ∈ keys t ↔ ∃ x, find? t k = some x := by
  constructor
  · intro hm
    obtain ⟨row, hrow, rfl⟩ := List.mem_map.mp hm
    induction t with
    | nil => cases hrow
    | cons first t ih =>
      rw [find?_cons]
      split
      · exact ⟨_, rfl⟩
      · next hne =>
        rcases List.mem_cons.mp hrow with rfl | hrow
        · exact absurd rfl hne
        · exact ih hrow (List.mem_map_of_mem hrow)
  · rintro ⟨x, hx⟩
    by_contra hn
    rw [find?_eq_none hn] at hx
    cases hx

theorem Definition.Ordinary.of_declared {w : World} {p : Draft} {D : Definition Stored} {C : Nat → Prop}
    {ops : List Builder} (h : w.Declares p D C)
    (hhelp : ∀ scope key, D.helperBlock? scope key = Session.lastHelper ops scope key)
    (hplain : ∀ scope name, name.startsWith "__" = true → Session.lastHelper ops scope name = none) :
    D.Ordinary := by
  intro name hm
  rw [Table.mem_keys_iff, Definition.find?_merged h.classNames] at hm
  obtain ⟨x, hx⟩ := hm
  by_contra hn
  have hnone : D.helper? name = none := Definition.helper?_none fun scope => by
    rw [hhelp]
    exact hplain scope name (Bool.of_not_eq_false hn)
  cases hnone.symm.trans hx

namespace World

theorem own?_eq_none {w : World} {c : ClassRef} {m : Nat} {name : String}
    (hm : .made m ∈ w.lineage c) (hn : name ∉ w.attributeNames c) : w.own? (.made m) name = none := by
  by_contra hne
  obtain ⟨a, ha⟩ := Option.ne_none_iff_exists'.mp hne
  refine hn (List.mem_flatMap.mpr ⟨.made m, hm, ?_⟩)
  obtain ⟨cls, hcls, ha⟩ := Option.bind_eq_some_iff.mp ha
  simp only [hcls, Option.map_some, Option.getD_some]
  exact Table.mem_keys_iff.mpr ⟨a, ha⟩

end World

namespace Machine

variable {w v : World} {n : Nat} {b : ClassRef} {p : Draft} {D : Definition Stored} {C : Nat → Prop}
  {text name : String} {own : String → Option Attribute}

theorem reservedNames_iff (hn : name.startsWith "__" = false) :
    name ∈ reservedNames w (World.classValue b) ↔
      name ∈ w.attributeNames b ∨ name = "execute" ∨ name = "definition" := by
  simp [reservedNames, World.classValue, hn]

theorem reserved_own {s : Shelf} {t : ParameterTable} (hbase : w.FunctionBase b s t C)
    (hk : name ∈ ["_name", "_description", "_parameters", "definition", "execute"]) :
    name ∈ reservedNames w (World.classValue b) := by
  rw [reservedNames_iff (own_ordinary name hk)]
  simp only [List.mem_cons, List.not_mem_nil, or_false] at hk
  rcases hk with rfl | rfl | rfl | rfl | rfl
  · exact .inl (hbase.fields _ (by simp))
  · exact .inl (hbase.fields _ (by simp))
  · exact .inl (hbase.fields _ (by simp))
  · exact .inr (.inr rfl)
  · exact .inr (.inl rfl)

theorem ToolAttributes.own_free {s : Shelf} {t : ParameterTable}
    (h : ToolAttributes D p (reservedNames w (World.classValue b)) text own)
    (hbase : w.FunctionBase b s t C) (hn : name.startsWith "__" = false)
    (hfree : name ∉ reservedNames w (World.classValue b)) :
    own name = (D.helper? name).map helperAttribute := by
  refine h.own_unreserved (common_of_startsWith hn) (fun hm => hfree (reserved_own hbase hm)) ?_
  exact Bool.eq_false_iff.mpr fun hc => hfree (List.contains_iff_mem.mp hc)

theorem FunctionTool.installs {s s' : Shelf} {t t' : ParameterTable} {names : List String}
    (h : FunctionTool v n b p D (reservedNames w (World.classValue b)) text names s t C)
    (hbase : w.FunctionBase b s' t' C) (hn : name.startsWith "__" = false) {x : Scope × Stored}
    (hx : D.helper? name = some x) :
    v.own? (.made n) name = some (helperAttribute x) ↔
      name ∉ w.attributeNames b ∧ name ≠ "execute" ∧ name ≠ "definition" := by
  obtain ⟨own, hcls, hown⟩ := h.tool
  rw [hcls.own?, ← not_or, ← not_or, ← reservedNames_iff hn]
  constructor
  · intro hhas hr
    have value (y : Value) : Attribute.value y ≠ helperAttribute x := by
      obtain ⟨scope, st⟩ := x
      cases scope <;> exact nofun
    by_cases hm : name ∈ ["_name", "_description", "_parameters", "definition", "execute"]
    · simp only [List.mem_cons, List.not_mem_nil, or_false] at hm
      rcases hm with rfl | rfl | rfl | rfl | rfl
      · exact value _ (Option.some.inj (hown.name.symm.trans hhas))
      · rcases hown.description with he | ⟨he, -⟩
        · exact value _ (Option.some.inj (he.symm.trans hhas))
        · cases he.symm.trans hhas
      · have found := hcls.find?_own hhas
        exact value _ (Prod.mk.inj (Option.some.inj (h.furnished.parameters.symm.trans found))).2
      · exact value _ (Option.some.inj (hown.definition.symm.trans hhas))
      · obtain ⟨scope, st⟩ := x
        cases scope <;> cases hown.execute.symm.trans hhas
    · rw [hown.helpers name (not_standing hn) hm, free?_reserved (List.contains_iff_mem.mpr hr)] at hhas
      cases hhas
  · intro hfree
    rw [hown.own_free hbase hn hfree, hx]
    rfl

theorem FunctionTool.find?_special {s : Shelf} {t : ParameterTable} {names reserved : List String}
    (h : FunctionTool v n b p D reserved text names s t C) (ho : D.Ordinary) (hd : w.Declares p D C)
    (hn : name.startsWith "__" = true) (hs : name ∉ ClassPlan.standing) :
    v.find? (.made n) name = v.find? b name := by
  obtain ⟨own, hcls, hown⟩ := h.tool
  refine hcls.find?_above ?_
  have apart : name ∉ ["_name", "_description", "_parameters", "definition", "execute"] := by
    intro hm
    rw [own_ordinary name hm] at hn
    cases hn
  rw [hown.helpers name hs apart, Definition.free?, ho.helper?_none hd hn]
  split <;> rfl

end Machine

namespace Session

open Machine

variable {w v : World} {d c : String} {p : Draft} {D : Definition Stored} {C : Nat → Prop}
  {base : Option String} {b : ClassRef} {s : Shelf} {t : ParameterTable} {a : Answer}
  {log : List Record}

theorem not_mem_sitesBelow {name : String} (hn : name.startsWith "__" = false)
    (hm : name ∈ w.attributeNames b ∨ name = "execute" ∨ name = "definition") :
    name ∉ (w.sitesBelow b p D).names :=
  fun hname => (Definition.mem_freeNames.mp hname).2 ((reservedNames_iff hn).mpr hm)

theorem functionNames_free (h : w.FunctionBase b s t C) {name : String}
    (hn : name ∈ World.functionNames) : name ∉ (w.sitesBelow b p D).names := by
  have plain : ∀ name ∈ World.functionNames, name.startsWith "__" = false := by decide +kernel
  refine not_mem_sitesBelow (plain name hn) (.inl ?_)
  rcases List.mem_append.mp hn with hm | hm
  · obtain ⟨row, hrow, rfl⟩ := List.mem_map.mp hm
    obtain ⟨k, hk⟩ := h.finds row hrow
    exact World.mem_attributeNames hk
  · exact h.fields name hm

theorem MeetsFunctionHost.helped_toLlm (h : MeetsFunctionHost w d p D C base b s t) (ho : D.Ordinary)
    (hplain : ∀ k, .builtIn k ∈ w.lineage b → k = .object)
    (hl : perform w (.toLlm (some d) c base) = (⟨.ok a, log⟩, v)) :
    v.Helped (w.sitesBelow b p D) := by
  obtain ⟨u, text, names, rows, hlater, hv, -, -, htool, -⟩ :=
    perform_toLlm h.toHolds h.host h.bases (a := a) (by rw [hl])
  rw [hl] at hv
  subst hv
  obtain ⟨own, hcls, hown⟩ := htool.tool
  have free (name : String) (hname : name ∈ (w.sitesBelow b p D).names) :
      name.startsWith "__" = false ∧ name ∉ reservedNames w (World.classValue b) ∧
        name ∈ Table.keys D.merged := by
    obtain ⟨hm, hr⟩ := Definition.mem_freeNames.mp hname
    exact ⟨ho name hm, hr, hm⟩
  exact {
    sites := (World.HasSites.mono (h.hasSites _) hlater.cells_le : u.HasSites _)
    rooted := hcls.rooted (hlater.rooted h.host.rooted)
    free := fun name hname => (free name hname).1
    held := fun name hname => by
      obtain ⟨hn, hr, hm⟩ := free name hname
      obtain ⟨x, hx⟩ := Table.mem_keys_iff.mp hm
      rw [Definition.find?_merged h.classNames] at hx
      refine ⟨helperAttribute x, ?_, ?_⟩
      · exact (hcls.own? name).trans ((hown.own_free h.host hn hr).trans (congrArg _ hx))
      · obtain ⟨scope, st⟩ := x
        cases scope
        · exact .ofInstance _
        · exact .ofClass _
    above := fun name hname holder hholder => by
      obtain ⟨hn, hr, -⟩ := free name hname
      have above : u.above (.made w.classes.length) = w.lineage b :=
        (List.cons.inj hcls.lineage).2.trans (hlater.lineage h.host.rooted)
      have hholder : holder ∈ w.lineage b := above ▸ hholder
      cases holder with
      | builtIn k =>
        obtain rfl := hplain k hholder
        exact Kind.object_attribute? hn
      | made m =>
        have kept : u.own? (.made m) name = w.own? (.made m) name :=
          hlater.own? (by rintro _ ⟨⟩; exact h.host.rooted m hholder) name
        refine kept.trans (World.own?_eq_none hholder fun hm => hr ?_)
        exact (reservedNames_iff hn).mpr (.inl hm) }

theorem MeetsFunctionHost.publishes_toLlm (h : MeetsFunctionHost w d p D C base b s t)
    (hl : perform w (.toLlm (some d) c base) = (⟨.ok a, log⟩, v)) :
    ∃ card places, v.Publishes (w.sitesBelow b p D) card places C := by
  obtain ⟨u, text, names, rows, hlater, hv, -, -, htool, hrows⟩ :=
    perform_toLlm h.toHolds h.host h.bases (a := a) (by rw [hl])
  rw [hl] at hv
  subst hv
  have hr := hlater.retains h.data fun _ _ => id
  have hdescription : D.description.Within (w.data C) :=
    (h.values _ (List.mem_cons_of_mem _ List.mem_cons_self)).1
  obtain ⟨hhost, -⟩ := (htool.named { u.names with
    classes := Table.insert c (.made w.classes.length) w.classIds }).functionHost
      (hdescription.mono hr.data_below)
  have hu := h.unchanged hlater
  obtain ⟨hofInstance, hofClass⟩ := h.hasSites []
  refine ⟨_, _, {
    toFunctionHost := hhost
    bundled := hu.declares.bundled.named _
    holds := hr.holdsData h.data
    sites := (World.HasSites.mono (h.hasSites _) hlater.cells_le : u.HasSites _)
    bundledBelow := h.bundled.nine_le
    apart := h.apart_sites rfl rfl
    spared := fun k hk => ?_
    free := fun _ hn => functionNames_free h.host hn }⟩
  have fresh (hk : w.cells.length ≤ k) : (w.sitesBelow b p D).Spares k :=
    ⟨(Nat.ne_of_lt (Nat.lt_of_lt_of_le hofInstance hk)).symm,
      (Nat.ne_of_lt (Nat.lt_of_lt_of_le hofClass hk)).symm⟩
  rcases List.mem_cons.mp hk with rfl | hk
  · exact fresh (Nat.le_refl _)
  · obtain ⟨row, hrow, rfl⟩ := List.mem_map.mp hk
    rcases hrows row hrow with hold | hnew
    · have kept := h.shelfApart row.2.2 (List.mem_cons_of_mem _ (List.mem_map_of_mem hold))
      simp only [Draft.changes, not_or] at kept
      exact kept.2.2
    · exact fresh hnew

theorem MeetsFunctionHost.became_toLlm (h : MeetsFunctionHost w d p D C base b s t)
    (ho : D.Ordinary) (hq : w.Quiet b D)
    (hl : perform w (.toLlm (some d) c base) = (⟨.ok a, log⟩, v)) :
    v.Became (w.sitesBelow b p D) p D C ∧ v.Incurious (w.sitesBelow b p D) D := by
  have helped := h.helped_toLlm ho hq.plain hl
  have takes := h.takes_toLlm hq.call (ho.helper?_none h.toDeclares (hooks_special _ (by simp))) hl
  obtain ⟨u, text, names, rows, hlater, hv, -, -, htool, hrows⟩ :=
    perform_toLlm h.toHolds h.host h.bases (a := a) (by rw [hl])
  rw [hl] at hv
  subst hv
  obtain ⟨own, hcls, hown⟩ := htool.tool
  have hook (key : String) (hn : key.startsWith "__" = true) (hs : key ∉ ClassPlan.standing) :
      u.find? (.made w.classes.length) key = w.find? b key :=
    (htool.find?_special ho h.toDeclares hn hs).trans (hlater.find? h.host.rooted key)
  have inert {x : Attribute} (hx : w.Inert x) : u.Inert x := by
    cases hx with
    | value hx => exact .value hx
    | slot n name => exact .slot n name
    | ofInstance hr hu => exact .ofInstance (hlater.handle hr) hu
    | ofClass hr hu => exact .ofClass (hlater.handle hr) hu
  constructor
  · exact {
      toHelped := helped
      execute := takes.execute
      reads := takes.reads
      call := takes.call
      toolName := takes.toolName
      opens := hcls.opens
      declares := (h.unchanged hlater).declares.named _
      ofInstance := rfl
      ofClass := rfl
      later := h.bundled.nine_le
      spares := fun name hn => by
        simp only [List.mem_cons, List.not_mem_nil, or_false] at hn
        rcases hn with rfl | rfl | rfl | rfl
        · exact not_mem_sitesBelow (own_ordinary _ (by simp)) (.inr (.inl rfl))
        · obtain ⟨k, hk⟩ := hq.call
          exact not_mem_sitesBelow (by decide +kernel) (.inl (World.mem_attributeNames hk))
        · exact functionNames_free h.host (by decide)
        · exact functionNames_free h.host (by decide)
      title := ⟨text, (hcls.own? _).trans hown.name⟩
      unset := hlater.extras.trans hq.unset }
  · exact {
      block := hq.block
      sets := fun n x hx => (inert (hq.sets n x
        ((hook "__setattr__" (hooks_special _ (by simp)) (by decide)).symm.trans hx))).named _
      prepares := fun n x hx => (inert (hq.prepares n x
        ((hook "__init__" (hooks_special _ (by simp)) (by decide)).symm.trans hx))).named _
      makes := fun n x hx => hq.makes n x
        ((hook "__new__" (hooks_special _ (by simp)) (by decide)).symm.trans hx) }

/-! ## The definition without its helpers -/

theorem classReport_stripped {sites : HelperSites}
    (hn : ∀ name ∈ ["__doc__", "__module__"], name ∉ sites.names) (cls : ClassRef) :
    classReport (w.stripped sites log) cls [] = classReport w cls [] := by
  have own (name : String) (hm : name ∈ ["__doc__", "__module__"]) :
      (w.stripped sites log).ownValue? cls name = w.ownValue? cls name := by
    unfold World.ownValue?
    rw [World.own?_stripped, if_neg fun he => hn name hm he.2]
  have name : (w.stripped sites log).className = w.className :=
    funext World.className_stripped
  unfold classReport
  dsimp only
  rw [name, World.above_stripped, own "__doc__" (by simp), own "__module__" (by simp)]

theorem told_stripped (sites : HelperSites) (log : List Record) {n : Nat} {text : String}
    {names reserved : List String} (h : FunctionTool v n b p D reserved text names s t C)
    (hd : v.HoldsData C)
    (hx : D.description.Within (v.data C)) (hC : ∀ k, C k → sites.Spares k)
    (hn : ∀ name ∈ ["__doc__", "__module__"], name ∉ sites.names) :
    Answer.ofValue (v.stripped sites log) (classReport (v.stripped sites log) (.made n) []) =
      Answer.ofValue v (classReport v (.made n) []) := by
  have within : (classReport v (.made n) []).Within (v.data C) := by
    obtain ⟨own, hcls, hown⟩ := h.tool
    unfold classReport World.ownValue?
    dsimp only
    rw [hcls.own?, hcls.own?, hown.doc, hown.module]
    exact ⟨⟨trivial, trivial⟩, ⟨trivial, trivial⟩, ⟨trivial, hx⟩, ⟨trivial, trivial⟩,
      ⟨trivial, trivial⟩, trivial⟩
  rw [classReport_stripped hn]
  exact (World.retains_stripped hC).ofValue hd within

theorem Holds.withoutHelpers (h : Holds w d p D C) : Holds (w.withoutHelpers p) d p D.helperless C where
  toDeclares := h.toDeclares.withoutHelpers
  named := h.named

/-- Where a definition is adapted, and its class gets its name in the session, it is adapted without its
helpers as well: to the same class without the attributes for these, of which the same is told. -/
theorem MeetsFunctionHost.alike_toLlm (h : MeetsFunctionHost w d p D C base b s t) (ho : D.Ordinary)
    {given cls : Value} (hgiven : w.baseGiven? base = some given) {u : World}
    (hmade : ((nested 998).adaptLlm p.value given).exec { w with log := [] } = (.ok cls, u)) :
    ∃ log', perform (w.withoutHelpers p) (.toLlm (some d) c base) =
      (⟨(perform w (.toLlm (some d) c base)).1.outcome, log'⟩,
        (perform w (.toLlm (some d) c base)).2.stripped (w.sitesBelow b p D) log') := by
  let w₀ : World := { w with log := [] }
  have hlog : w.Later w₀ (fun _ => False) := (World.Later.refl w _).log []
  have hbase₀ : w₀.FunctionBase b s t C :=
    hlog.functionBase h.host h.data (fun _ _ => id) (fun _ _ => id)
  obtain ⟨log', hmade'⟩ := adaptLlm_helperless (s := w.sitesBelow b p D) 995
    (h.log []).toDeclares ho hbase₀ h.shelfApart
    (fun u hu => h.bases.exec_requireHost hgiven hu) hmade [] rfl
  obtain ⟨text, names, rows, own, hcls, -, -, hlater, hclass, hattributes, hfurnished, -⟩ :=
    of_adaptLlm 995 (h.log []).toDeclares hbase₀ (h.bases.exec_requireHost hgiven rfl) hmade
  obtain rfl : cls = World.classValue (.made w.classes.length) := hcls
  have reported (w u : World) {D : Definition Stored} (h : Holds w d p D C)
      (hgiven : w.baseGiven? base = some given) {n : Nat}
      (hmade : ((nested 998).adaptLlm p.value given).exec { w with log := [] } =
        (.ok (World.classValue (.made n)), u)) : perform w (.toLlm (some d) c base) =
      (⟨Answer.ofValue (u.named { u.names with classes := Table.insert c (.made n) u.classIds })
        (classReport (u.named { u.names with classes := Table.insert c (.made n) u.classIds })
          (.made n) []), u.log⟩,
        u.named { u.names with classes := Table.insert c (.made n) u.classIds }) := by
    refine perform_of_exec (x := .ok _) ?_
    rw [exec_stepLlm (h.log []) hgiven, Run.exec_bind, hmade]
    exact exec_bindClass fun w b => classReport w b []
  have full := reported w u h.toHolds hgiven hmade
  have bare := reported (w.withoutHelpers p) (u.stripped _ log') h.toHolds.withoutHelpers hgiven hmade'
  have hretains := (hlog.trans hlater fun _ hn _ => hn).retains h.data fun _ _ => id
  have hdescription : D.description.Within (u.data C) :=
    ((h.values _ (List.mem_cons_of_mem _ List.mem_cons_self)).1).mono hretains.data_below
  have tool : FunctionTool u w.classes.length b p D _ text names _ t C :=
    ⟨⟨own, hclass, hattributes⟩, hfurnished⟩
  have same := told_stripped (w.sitesBelow b p D) log'
    (tool.named { u.names with classes := Table.insert c (.made w.classes.length) u.classIds })
    (hretains.holdsData h.data) hdescription (h.apart_sites rfl rfl) fun name hn hm => by
      refine not_standing (ho name (Definition.mem_freeNames.mp hm).1) ?_
      simp only [List.mem_cons, List.not_mem_nil, or_false] at hn
      rcases hn with rfl | rfl <;> decide
  rw [full]
  exact ⟨log', bare.trans (congrArg (fun x => ((⟨x, log'⟩, _) : Reply × World)) same)⟩

theorem MeetsFunctionHost.helperless_toLlm (h : MeetsFunctionHost w d p D C base b s t)
    (ho : D.Ordinary) (hl : perform w (.toLlm (some d) c base) = (⟨.ok a, log⟩, v)) :
    ∃ log', perform (w.withoutHelpers p) (.toLlm (some d) c base) =
      (⟨.ok a, log'⟩, v.stripped (w.sitesBelow b p D) log') := by
  obtain ⟨x, hr⟩ := of_perform_ok (congrArg (fun r => r.1.outcome) hl)
  obtain ⟨given, cls, u, hgiven, hmade, -⟩ := of_stepLlm (h.log []) hr
  obtain ⟨log', hbare⟩ := h.alike_toLlm (c := c) ho hgiven hmade
  rw [hl] at hbare
  exact ⟨log', hbare⟩

/-! ## The helpers of which a class is warned -/

theorem mem_collided (h : w.Declares p D C) (ho : D.Ordinary) (name : String) :
    name ∈ collisions (Table.keys D.merged) (reservedNames w (World.classValue b)) ↔
      (D.helper? name).isSome ∧
        (name ∈ w.attributeNames b ∨ name = "execute" ∨ name = "definition") := by
  have held : name ∈ Table.keys D.merged ↔ (D.helper? name).isSome := by
    rw [Table.mem_keys_iff, ← Option.isSome_iff_exists, Definition.find?_merged h.classNames]
  show name ∈ List.mergeSort _ _ ↔ _
  rw [List.mem_mergeSort, List.mem_filter, List.contains_iff_mem, held]
  exact and_congr_right fun hsome => reservedNames_iff (ho name (held.mpr hsome))

theorem pairwise_collided (h : w.Declares p D C) (reserved : List String) :
    (collisions (Table.keys D.merged) reserved).Pairwise (· < ·) := by
  have nodup : (collisions (Table.keys D.merged) reserved).Nodup := by
    refine (List.mergeSort_perm _ _).nodup_iff.mpr (List.Nodup.filter _ ?_)
    exact Definition.nodup_merged h.instanceNames
  have ordered : (collisions (Table.keys D.merged) reserved).Pairwise
      fun a b => decide (a ≤ b) = true :=
    List.pairwise_mergeSort (fun a b c hab hbc => by
      simp only [decide_eq_true_eq] at *
      exact String.le_trans hab hbc) (fun a b => by simpa using String.le_total a b) _
  refine (ordered.and nodup).imp fun hab => ?_
  exact Std.lt_of_le_of_ne (of_decide_eq_true hab.1) hab.2

theorem MeetsFunctionHost.warned_toLlm (h : MeetsFunctionHost w d p D C base b s t) (ho : D.Ordinary)
    (hkeeps : w.logFrom ≤ 30) (hl : perform w (.toLlm (some d) c base) = (⟨.ok a, log⟩, v)) :
    ∃ tool names, warnings log = names.map (collisionWarning tool) ∧
      (names ≠ [] → w.printedOf D.name = .ok tool) ∧ names.Pairwise (· < ·) ∧
      ∀ name, name ∈ names ↔ (D.helper? name).isSome ∧
        (name ∈ w.attributeNames b ∨ name = "execute" ∨ name = "definition") := by
  have warned := Session.warned_toLlm h.toHolds h.host h.bases (a := a) (by rw [hl])
  rw [hl] at warned
  have sorted := pairwise_collided h.toDeclares (reservedNames w (World.classValue b))
  have members := mem_collided (b := b) h.toDeclares ho
  generalize collisions (Table.keys D.merged) (reservedNames w (World.classValue b)) = names at *
  unfold collisionWarnings at warned
  split at warned
  · next hnone =>
    have hnone : names = [] := hnone.resolve_right (absurd hkeeps)
    exact ⟨"", names, by rw [hnone, ← Except.ok.inj warned]; rfl, absurd hnone, sorted, members⟩
  · cases htool : w.printedOf D.name with
    | error f =>
      rw [htool] at warned
      cases warned
    | ok tool =>
      rw [htool] at warned
      exact ⟨tool, names, (Except.ok.inj warned).symm, fun _ => rfl, sorted, members⟩

theorem warnable_iff (h : w.Declares p D C) (ho : D.Ordinary) :
    w.Warnable b D ↔ ∃ warned, collisionWarnings w D.name
      (collisions (Table.keys D.merged) (reservedNames w (World.classValue b))) = .ok warned := by
  have collide : (∃ name, (D.helper? name).isSome ∧
      (name ∈ w.attributeNames b ∨ name = "execute" ∨ name = "definition")) ↔
      collisions (Table.keys D.merged) (reservedNames w (World.classValue b)) ≠ [] := by
    rw [ne_eq, List.eq_nil_iff_forall_not_mem, not_forall_not]
    exact exists_congr fun name => (mem_collided h ho name).symm
  unfold World.Warnable collisionWarnings
  rw [collide]
  split
  · next hnone =>
    refine iff_of_true (fun hsome hkeeps => ?_) ⟨_, rfl⟩
    exact absurd (hnone.resolve_right (absurd hkeeps)) hsome
  · next hsome =>
    rw [not_or, not_not] at hsome
    rw [imp_iff_right hsome.1, imp_iff_right hsome.2]
    cases w.printedOf D.name with
    | error f => exact iff_of_false (fun ⟨_, ht⟩ => nomatch ht) fun ⟨_, ht⟩ => nomatch ht
    | ok tool => exact iff_of_true ⟨_, rfl⟩ ⟨_, rfl⟩

theorem MeetsFunctionHost.toLlm_of_helperless (h : MeetsFunctionHost w d p D C base b s t)
    (ho : D.Ordinary) (hwarns : w.Warnable b D)
    (hl : (perform (w.withoutHelpers p) (.toLlm (some d) c base)).1.outcome = .ok a) :
    (perform w (.toLlm (some d) c base)).1.outcome = .ok a := by
  let w₀ : World := { w with log := [] }
  let bare : World := { w.withoutHelpers p with log := [] }
  have hbare : Holds bare d p D.helperless C := h.toHolds.withoutHelpers.log []
  obtain ⟨x, hr⟩ := of_perform_ok hl
  obtain ⟨given, cls, u, hgiven, hmade, -⟩ := of_stepLlm hbare hr
  have hgiven : w.baseGiven? base = some given := hgiven
  have hlog : w.Later w₀ (fun _ => False) := (World.Later.refl w _).log []
  have hbase₀ : w₀.FunctionBase b s t C :=
    hlog.functionBase h.host h.data (fun _ _ => id) (fun _ _ => id)
  have hbaseBare : bare.FunctionBase b s t C :=
    ((World.Later.refl (w.withoutHelpers p) _).log []).functionBase
      (h.host.withoutHelpers h.toDeclares h.shelfApart) h.toHolds.withoutHelpers.data
      (fun _ _ => id) fun _ _ => id
  have hreq : (requireHost llmHost given "LLM tool host" "tool_forge.hosts.llm").exec bare =
      (.ok (World.classValue b), bare) :=
    h.bases.exec_requireHost hgiven rfl
  obtain ⟨-, -, hdone⟩ := adaptLlm_cases 995 hbare.toDeclares hbaseBare hreq hmade
  obtain ⟨text, names, -, -, -, htext, hnames, -⟩ := hdone _ rfl
  have hname := named_adaptLlm 995 hbare.toDeclares (fun _ hm => absurd hm List.not_mem_nil) hbaseBare
    hreq hmade htext
  have hretains : w₀.Retains bare C := by
    have retains : w₀.Retains (w₀.stripped (w.sitesBelow b p D) []) C :=
      World.retains_stripped (h.apart_sites rfl rfl)
    rwa [show w₀.stripped (w.sitesBelow b p D) [] = bare from w₀.stripped_unmade p _ []] at retains
  have htext₀ : w₀.textOf D.name = .ok text :=
    (hretains.textOf (h.log []).data ((h.log []).values _ List.mem_cons_self).1).symm.trans htext
  have hnames₀ : w₀.textsOf D.params = .ok names := by
    refine (hretains.textsOf (h.log []).data fun spec hs => ?_).symm.trans hnames
    exact (h.log []).within_params hs _ (by simp [ParamSpec.values])
  obtain ⟨warned, hwarned⟩ := (warnable_iff h.toDeclares ho).mp hwarns
  obtain ⟨log, hrun⟩ := exec_adaptLlm (w := w₀) 995 (h.log []).toDeclares ho hbase₀
    (h.bases.exec_requireHost hgiven rfl) hwarned htext₀ hname hnames₀
  obtain ⟨log', halike⟩ := h.alike_toLlm (c := c) ho hgiven hrun
  rw [halike] at hl
  exact hl

/-- A definition is adapted with its helpers just where it is adapted without them and the class can be
warned, and the same is told of both classes. -/
theorem MeetsFunctionHost.toLlm_iff_helperless (h : MeetsFunctionHost w d p D C base b s t)
    (ho : D.Ordinary) : (perform w (.toLlm (some d) c base)).1.outcome = .ok a ↔
      w.Warnable b D ∧ (perform (w.withoutHelpers p) (.toLlm (some d) c base)).1.outcome = .ok a := by
  refine ⟨fun hl => ⟨?_, ?_⟩, fun hl => h.toLlm_of_helperless ho hl.1 hl.2⟩
  · exact (warnable_iff h.toDeclares ho).mpr ⟨_, Session.warned_toLlm h.toHolds h.host h.bases hl⟩
  · obtain ⟨log', hbare⟩ := h.helperless_toLlm (c := c) (a := a) ho
      (show perform w (.toLlm (some d) c base) = (⟨.ok a, _⟩, _) from by rw [← hl])
    rw [hbare]

theorem uses_self (w : World) (n : Nat) : w.Uses n w (fun _ => False) where
  later := .refl w _
  data _ hk := hk.elim
  fresh _ hk := hk.elim
  objects _ _ ho hobj := absurd (List.getElem?_eq_some_iff.mp hobj).1 (Nat.not_lt_of_le ho)

/-- A definition for a function-calling host, with helpers of which no name is one that the language uses
itself, is adapted just where it is adapted without its helpers and these can be warned of, and the same is
told of both classes. Whatever the class is asked, it answers as the one without helpers does, and so do
objects of it that execute and take mappings, where neither the block of the definition nor what the base
has done to objects asks for anything. The class has just the helpers of which the name is none that the
base has, nor one of the two that the host gives to each class, and it is warned of each of the others
once, in order. -/
theorem helpers_undisturbing (h : MeetsFunctionHost w d p D C base b s t) (ho : D.Ordinary) :
    Holds (w.withoutHelpers p) d p D.helperless C ∧
    (∀ a, (perform w (.toLlm (some d) c base)).1.outcome = .ok a ↔
      w.Warnable b D ∧ (perform (w.withoutHelpers p) (.toLlm (some d) c base)).1.outcome = .ok a) ∧
    ∀ a log v, perform w (.toLlm (some d) c base) = (⟨.ok a, log⟩, v) →
      (∀ steps : List Step, (∀ step ∈ steps, StepOn c (w.Quiet b D) step) →
        (∀ step ∈ steps, ∀ i, step.object? = some i → Table.find? w.objectIds i = none) →
        (performAll v steps).1.map Reply.outcome =
          (performAll (perform (w.withoutHelpers p) (.toLlm (some d) c base)).2 steps).1.map
            Reply.outcome) ∧
      (∃ n, Table.find? v.classIds c = some (.made n) ∧
        ∀ name x, D.helper? name = some x → (v.own? (.made n) name = some (helperAttribute x) ↔
          name ∉ w.attributeNames b ∧ name ≠ "execute" ∧ name ≠ "definition")) ∧
      (w.logFrom ≤ 30 → ∃ tool names, warnings log = names.map (collisionWarning tool) ∧
        (names ≠ [] → w.printedOf D.name = .ok tool) ∧ names.Pairwise (· < ·) ∧
        ∀ name, name ∈ names ↔ (D.helper? name).isSome ∧
          (name ∈ w.attributeNames b ∨ name = "execute" ∨ name = "definition")) := by
  refine ⟨h.toHolds.withoutHelpers, fun a => h.toLlm_iff_helperless ho, fun a log v hl => ?_⟩
  obtain ⟨log', hbare⟩ := h.helperless_toLlm ho hl
  obtain ⟨card, places, hpublishes⟩ := h.publishes_toLlm hl
  have stands : Stands v (w.sitesBelow b p D) p D card places C (w.Quiet b D) :=
    { publishes := hpublishes
      became := fun hq => (h.became_toLlm ho hq hl).1
      incurious := fun hq => (h.became_toLlm ho hq hl).2 }
  obtain ⟨u, text, names, rows, hlater, hv, -, -, htool, -⟩ :=
    perform_toLlm h.toHolds h.host h.bases (a := a) (by rw [hl])
  replace hv : v = u.named
      { u.names with classes := Table.insert c (.made w.classes.length) w.classIds } :=
    (congrArg Prod.snd hl).symm.trans hv
  have objects : v.objectIds = w.objectIds := by
    rw [hv]
    exact congrArg World.Names.objects hlater.names
  have bound : Table.find? v.classIds c = some (.made w.classes.length) := by
    rw [hv]
    exact (Table.find?_insert _ _ _ _).trans (if_pos rfl)
  have side : Parallel v (w.sitesBelow b p D) c (fun i => Table.find? w.objectIds i = none) v
      (v.stripped (w.sitesBelow b p D) log') fun _ => False :=
    { uses := uses_self v _
      stripped := ⟨log', rfl⟩
      bound := bound
      objects := fun i hi => .inl (objects ▸ hi) }
  refine ⟨fun steps hsteps hids => ?_, ⟨w.classes.length, bound, fun name x hx => ?_⟩,
    fun hkeeps => h.warned_toLlm ho hkeeps hl⟩
  · rw [hbare]
    exact (side.run stands hsteps hids).symm
  · have ordinary : name.startsWith "__" = false := ho name (by
      rw [Table.mem_keys_iff, Definition.find?_merged h.classNames]
      exact ⟨x, hx⟩)
    rw [hv]
    exact (htool.named _).installs h.host ordinary hx

/-- A helper with a free name, and two with one name that is taken. -/
def crowding : List Builder :=
  [.help .ofInstance "shout" (.mk [] none (.getAttr "tool_name" .null)),
    .help .ofInstance "description" (.mk [] none (.lit .null)),
    .help .ofClass "description" (.mk [] none (.lit .null)),
    .execute (.mk [] none (.lit (.str "done")))]

/-- Steps that ask a class for what it publishes, and an object of it to execute and to take a mapping. -/
def crowdedSteps : List Step :=
  [.callClass "L" "tool_name" [] [], .callClass "L" "description" [] [],
    .callClass "L" "parameters" [] [], .callClass "L" "to_json_schema" [] [],
    .callClass "L" "to_openai_schema" [] [], .new "i" "L", .callObject "i" "execute" [] [],
    .callObject "i" "call" [.dict []] []]

set_option maxRecDepth 100000 in
theorem helpers_undisturbing_crowding : ∃ (p : Draft) (D : Definition Stored) (a : Answer)
    (log : List Record) (v : World),
    D.Ordinary ∧
    perform (declaring (.str "tool") crowding) (.toLlm (some "d") "L" none) = (⟨.ok a, log⟩, v) ∧
    (declaring (.str "tool") crowding).Quiet functionClassRef D ∧
    (perform ((declaring (.str "tool") crowding).withoutHelpers p) (.toLlm (some "d") "L" none)
      ).1.outcome = .ok a ∧
    (performAll v crowdedSteps).1.map Reply.outcome =
      (performAll (perform ((declaring (.str "tool") crowding).withoutHelpers p)
        (.toLlm (some "d") "L" none)).2 crowdedSteps).1.map Reply.outcome ∧
    ∃ (tool : String) (names : List String), warnings log = names.map (collisionWarning tool) ∧
      names.Pairwise (· < ·) ∧
      ∀ name, name ∈ names ↔ (D.helper? name).isSome ∧
        (name ∈ (declaring (.str "tool") crowding).attributeNames functionClassRef ∨
          name = "execute" ∨ name = "definition") := by
  have told : (perform start (.define "d" (.str "tool") none)).1.outcome.isOk = true ∧
      (perform (declaring (.str "tool") crowding) (.toLlm (some "d") "L" none)).1.outcome.isOk = true ∧
      (declaring (.str "tool") crowding).lineage functionClassRef =
        [functionClassRef, .builtIn .object] ∧
      (declaring (.str "tool") crowding).extras.isEmpty = true ∧
      (declaring (.str "tool") crowding).objectIds.isEmpty = true ∧
      (declaring (.str "tool") crowding).logFrom ≤ 30 ∧
      ∀ key ∈ ["__setattr__", "__init__", "__new__"],
        ((declaring (.str "tool") crowding).find? functionClassRef key).map (·.1) =
          some (.builtIn .object) := by
    decide +kernel
  obtain ⟨hdefined, hadapted, hlineage, hextras, hobjects, hkeeps, hhooks⟩ := told
  obtain ⟨p, D, C, x, hf, -, hbuilt, hhelp, hleads, -⟩ := declaring_meets crowding hdefined
  obtain ⟨a, log, hl⟩ := exists_perform hadapted
  generalize declaring (.str "tool") crowding = w at *
  generalize (perform w (.toLlm (some "d") "L" none)).2 = v at hl
  have ho : D.Ordinary := Definition.Ordinary.of_declared hf.toDeclares hhelp fun scope name hn => by
    have plain : ∀ key ∈ ["shout", "description"], key.startsWith "__" = false := by decide +kernel
    have apart (key : String) (hk : key ∈ ["shout", "description"]) : key ≠ name := by
      rintro rfl
      cases (plain key hk).symm.trans hn
    simp [lastHelper, crowding, Builder.helper?, apart "shout" (by simp), apart "description" (by simp)]
  have bare (key : String) (hk : key ∈ ["__setattr__", "__init__", "__new__"]) (n : Nat)
      (x : Attribute) : w.find? functionClassRef key ≠ some (.made n, x) := by
    intro hx
    have := hhooks key hk
    rw [hx] at this
    cases this
  have quiet : w.Quiet functionClassRef D :=
    { call := ⟨0, (hleads.find? functionBase_start.rooted (by decide)).trans rfl⟩
      plain := fun k hk => by
        rw [hlineage] at hk
        simpa [functionClassRef] using hk
      unset := List.isEmpty_iff.mp hextras
      block := fun st hst u hu => by
        have asks : ∀ op ∈ crowding, ∀ block, op.stores? = some block → block.uses = [] := by decide
        have hblock := congrArg (Option.map (·.block)) hst
        obtain hnone | ⟨op, hop, he⟩ := hbuilt.of_block hblock
        · cases hnone
        · rw [asks op hop _ he] at hu
          cases hu
      sets := fun n x hx => absurd hx (bare _ (by simp) n x)
      prepares := fun n x hx => absurd hx (bare _ (by simp) n x)
      makes := fun n x hx => absurd hx (bare _ (by simp) n x) }
  obtain ⟨-, hiff, hrest⟩ := helpers_undisturbing (c := "L") hf ho
  obtain ⟨hsteps, -, hwarned⟩ := hrest a log v hl
  obtain ⟨tool, names, hlog, -, hsorted, hnames⟩ := hwarned hkeeps
  refine ⟨p, D, a, log, v, ho, hl, quiet, ((hiff a).mp (by rw [hl])).2, hsteps crowdedSteps ?_ ?_,
    tool, names, hlog, hsorted, hnames⟩
  · intro step hstep
    simp only [crowdedSteps, List.mem_cons, List.not_mem_nil, or_false] at hstep
    rcases hstep with rfl | rfl | rfl | rfl | rfl | rfl | rfl | rfl
    · exact .tell .title
    · exact .tell .description
    · exact .tell .parameters
    · exact .tell .schema
    · exact .tell .entry
    · exact .make quiet "i"
    · exact .call quiet "i" (.inl rfl) [] []
    · exact .call quiet "i" (.inr rfl) [.dict []] []
  · intro _ _ i _
    rw [List.isEmpty_iff.mp hobjects]
    rfl

/-- Steps that adapt a definition onto a class with a hook that looks for a helper, and sets an attribute
if it finds it. -/
def noticing (hook key : String) (helpers : List Builder) : List Step :=
  [.define "b" (.str "base") none,
    .help (some "b") .ofInstance hook (.mk [] none
      (.cond (.hasAttr "shout") (.setAttr key (.lit .null)) (.lit .null))),
    .toLlm (some "b") "B" none, .define "d" (.str "tool") none] ++ helpers.map (Builder.step "d") ++
  [.execute (some "d") (.mk [] none (.lit (.str "done"))), .toLlm (some "d") "L" (some "B"),
    .callClass "L" "to_json_schema" [] [], .new "i" "L", .callObject "i" "execute" [] []]

set_option maxRecDepth 100000 in
/-- Where the class above looks for a helper, a tool with it does not execute, or does not tell its schema,
and without it does. -/
theorem helpers_noticed :
    ([("__init__", "execute"), ("__init_subclass__", "to_json_schema")].map fun row =>
      [[.help .ofInstance "shout" (.mk [] none (.lit .null))], []].map fun helpers =>
        ((replies 30 (noticing row.1 row.2 helpers)).drop (6 + helpers.length)).map fun reply =>
          reply.outcome.isOk) =
      [[[true, true, false], [true, true, true]], [[false, true, true], [true, true, true]]] := by
  decide +kernel

end Session

end Toolwright
