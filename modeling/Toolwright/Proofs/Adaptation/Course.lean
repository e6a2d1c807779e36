import Toolwright.Proofs.Adaptation.Steps

/-!
# The course of a session

While a session goes on, things are added and cells change, names are given, hosts are registered and
classes of hosts are declared further. What a class has apart from its declarations stays as it was.
-/

namespace Toolwright

set_option autoImplicit false

/-- The names under which a class of a host keeps what was declared on it. -/
def declaredNames : List String := ["_name", "_description", "_input_schema"]

namespace World

/-- A class on which a name can be declared. -/
def IsHost (w : World) (n : Nat) : Prop :=
  ∃ k f, w.find? (.made n) "tool_name" = some (k, .ofClass (.bundled (.host f)))

/-- A world that a session may come to. -/
inductive LeadsTo (w : World) : World → Prop
  | refl : LeadsTo w w
  | later {v u : World} {own : Nat → Prop} : LeadsTo w v → v.Later u own → LeadsTo w u
  | named {v : World} (names : Names) : LeadsTo w v → LeadsTo w (v.named names)
  | registered {v : World} (hosts : List (String × Option ClassRef)) :
    LeadsTo w v → LeadsTo w { v with hosts }
  | declared {v : World} {n : Nat} {name : String} (x : Value) :
    LeadsTo w v → v.IsHost n → name ∈ declaredNames → LeadsTo w (v.setAttribute n name (.value x))

variable {w v : World} {c : ClassRef} {n : Nat} {key name : String} {x : Value}

/-! ## One declaration -/

theorem own?_setAttribute (w : World) (n : Nat) (name : String) (a : Attribute) (c : ClassRef)
    (key : String) :
    (w.setAttribute n name a).own? c key = w.own? c key ∨
      c = .made n ∧ key = name ∧ (w.setAttribute n name a).own? c key = some a := by
  cases c with
  | builtIn k => exact .inl rfl
  | made k =>
    simp only [own?, setAttribute, modifyClass, List.getElem?_modify]
    cases w.classes[k]? with
    | none => exact .inl rfl
    | some cls =>
      by_cases hk : n = k
      · by_cases hkey : name = key
        · exact .inr ⟨by rw [hk], hkey.symm, by simp [hk, hkey, Table.find?_insert]⟩
        · exact .inl (by simp [hk, Table.find?_insert, hkey])
      · exact .inl (by simp [hk])

theorem find?_setAttribute (h : key ≠ name ∨ .made n ∉ w.lineage c) (a : Attribute) :
    (w.setAttribute n name a).find? c key = w.find? c key := by
  unfold World.find?
  rw [lineage_setAttribute, ← List.head?_filterMap, ← List.head?_filterMap]
  refine congrArg List.head? (List.filterMap_congr fun holder hm => congrArg (Option.map _) ?_)
  rcases w.own?_setAttribute n name a holder key with he | ⟨rfl, rfl, -⟩
  · exact he
  · exact absurd hm (h.resolve_left fun hne => hne rfl)

theorem find?_setAttribute_or (w : World) (n : Nat) (name : String) (x : Value) (c : ClassRef)
    (key : String) : (w.setAttribute n name (.value x)).find? c key = w.find? c key ∨
      ∃ k, (w.setAttribute n name (.value x)).find? c key = some (k, .value x) := by
  unfold World.find?
  rw [lineage_setAttribute]
  induction w.lineage c with
  | nil => exact .inl rfl
  | cons holder holders ih =>
    rw [List.findSome?_cons, List.findSome?_cons]
    rcases w.own?_setAttribute n name (.value x) holder key with he | ⟨-, -, he⟩
    · rw [he]
      cases w.own? holder key with
      | some a => exact .inl rfl
      | none => exact ih
    · rw [he]
      exact .inr ⟨holder, rfl⟩

theorem mem_attributeNames_setAttribute (a : Attribute)
    (h : key ∈ w.attributeNames c) : key ∈ (w.setAttribute n name a).attributeNames c := by
  obtain ⟨holder, hm, hk⟩ := List.mem_flatMap.mp h
  refine List.mem_flatMap.mpr ⟨holder, ?_, ?_⟩
  · rw [lineage_setAttribute]
    exact hm
  · cases holder with
    | builtIn k => cases hk
    | made k =>
      simp only [setAttribute, modifyClass, List.getElem?_modify]
      cases hcls : w.classes[k]? with
      | none => simp [hcls] at hk
      | some cls =>
        simp only [hcls, Option.map_some, Option.getD_some] at hk ⊢
        split
        · exact Table.keys_insert_subset.mpr (.inl hk)
        · exact hk

theorem qualifiedName_setAttribute (w : World) (n : Nat) (name : String) (a : Attribute)
    (c : ClassRef) : (w.setAttribute n name a).qualifiedName c = w.qualifiedName c := by
  cases c with
  | builtIn k => rfl
  | made k =>
    simp only [World.qualifiedName, setAttribute, modifyClass, List.getElem?_modify]
    cases w.classes[k]? with
    | none => rfl
    | some cls => split <;> rfl

theorem shape?_setAttribute (w : World) (n : Nat) (name : String) (a : Attribute) (c : ClassRef) :
    (w.setAttribute n name a).shape? c = w.shape? c := by
  unfold World.shape?
  rw [lineage_setAttribute, qualifiedName_setAttribute]

theorem className_setAttribute (w : World) (n : Nat) (name : String) (a : Attribute) (c : ClassRef) :
    (w.setAttribute n name a).className c = w.className c := by
  cases c with
  | builtIn k => rfl
  | made k =>
    simp only [World.className, setAttribute, modifyClass, List.getElem?_modify]
    cases w.classes[k]? with
    | none => rfl
    | some cls => split <;> rfl

theorem Rooted.setAttribute (h : w.Rooted c) (n : Nat) (name : String) (a : Attribute) :
    (w.setAttribute n name a).Rooted c := by
  intro k hk
  rw [lineage_setAttribute] at hk
  obtain ⟨cls, hcls⟩ := h k hk
  simp [World.setAttribute, modifyClass, List.getElem?_modify, hcls]

theorem Later.shape? {own : Nat → Prop} (hl : w.Later v own) (hc : w.Rooted c) :
    v.shape? c = w.shape? c := by
  have hname : v.qualifiedName c = w.qualifiedName c := by
    cases c with
    | builtIn k => rfl
    | made n =>
      obtain ⟨cls, hcls⟩ := hc n List.mem_cons_self
      simp only [World.qualifiedName, hcls, hl.hostClass hcls]
  unfold World.shape?
  rw [hl.lineage hc, hname]

/-! ## The course -/

namespace LeadsTo

theorem trans {u : World} (h : w.LeadsTo v) (h' : v.LeadsTo u) : w.LeadsTo u := by
  induction h' with
  | refl => exact h
  | later _ hl ih => exact ih.later hl
  | named names _ ih => exact ih.named names
  | registered hosts _ ih => exact ih.registered hosts
  | declared x _ hn hm ih => exact ih.declared x hn hm

theorem rooted_lineage (h : w.LeadsTo v) (hc : w.Rooted c) :
    v.Rooted c ∧ v.lineage c = w.lineage c := by
  induction h with
  | refl => exact ⟨hc, rfl⟩
  | later _ hl ih => exact ⟨hl.rooted ih.1, (hl.lineage ih.1).trans ih.2⟩
  | named names _ ih => exact ih
  | registered hosts _ ih => exact ih
  | declared x _ hn hm ih =>
    exact ⟨ih.1.setAttribute _ _ _, (lineage_setAttribute _ _ _ _ _).trans ih.2⟩

theorem rooted (h : w.LeadsTo v) (hc : w.Rooted c) : v.Rooted c := (h.rooted_lineage hc).1

theorem lineage (h : w.LeadsTo v) (hc : w.Rooted c) : v.lineage c = w.lineage c :=
  (h.rooted_lineage hc).2

theorem isOpen (h : w.LeadsTo v) (hc : w.Rooted c) : v.isOpen c = w.isOpen c := by
  induction h with
  | refl => rfl
  | later hv hl ih => exact (hl.isOpen (hv.rooted hc)).trans ih
  | named names _ ih => exact ih
  | registered hosts _ ih => exact ih
  | declared x _ hn hm ih => exact (isOpen_setAttribute _ _ _ _ _).trans ih

theorem className (h : w.LeadsTo v) (hc : w.Rooted c) : v.className c = w.className c := by
  induction h with
  | refl => rfl
  | later hv hl ih => exact (hl.className (hv.rooted hc)).trans ih
  | named names _ ih => exact ih
  | registered hosts _ ih => exact ih
  | declared x _ hn hm ih => exact (className_setAttribute _ _ _ _ _).trans ih

theorem shape? (h : w.LeadsTo v) (hc : w.Rooted c) : v.shape? c = w.shape? c := by
  induction h with
  | refl => rfl
  | later hv hl ih => exact (hl.shape? (hv.rooted hc)).trans ih
  | named names _ ih => exact ih
  | registered hosts _ ih => exact ih
  | declared x _ hn hm ih => exact (shape?_setAttribute _ _ _ _ _).trans ih

theorem handle (h : w.LeadsTo v) {r : Nat} {handle : Handle} (hr : w.handles[r]? = some handle) :
    v.handles[r]? = some handle := by
  induction h with
  | refl => exact hr
  | later _ hl ih => exact hl.handle ih
  | named names _ ih => exact ih
  | registered hosts _ ih => exact ih
  | declared x _ hn hm ih => exact ih

theorem find? (h : w.LeadsTo v) (hc : w.Rooted c) (hkey : key ∉ declaredNames) :
    v.find? c key = w.find? c key := by
  induction h with
  | refl => rfl
  | later hv hl ih => exact (hl.find? (hv.rooted hc) key).trans ih
  | named names _ ih => exact ih
  | registered hosts _ ih => exact ih
  | declared x _ hn hm ih =>
    refine (find?_setAttribute (.inl ?_) _).trans ih
    rintro rfl
    exact hkey hm

theorem find?_or (h : w.LeadsTo v) (hc : w.Rooted c) (key : String) :
    v.find? c key = w.find? c key ∨ ∃ k x, v.find? c key = some (k, .value x) := by
  induction h with
  | refl => exact .inl rfl
  | later hv hl ih =>
    rw [hl.find? (hv.rooted hc)]
    exact ih
  | named names _ ih => exact ih
  | registered hosts _ ih => exact ih
  | declared x _ hn hm ih =>
    rcases find?_setAttribute_or _ _ _ x c key with he | ⟨k, he⟩
    · rw [he]
      exact ih
    · exact .inr ⟨k, x, he⟩

theorem attributeNames (h : w.LeadsTo v) (hc : w.Rooted c) (hkey : key ∈ w.attributeNames c) :
    key ∈ v.attributeNames c := by
  induction h with
  | refl => exact hkey
  | later hv hl ih =>
    rw [hl.attributeNames (hv.rooted hc)]
    exact ih
  | named names _ ih => exact ih
  | registered hosts _ ih => exact ih
  | declared x _ hn hm ih => exact mem_attributeNames_setAttribute _ ih

/-- A class on which no name can be declared finds what it found under all names, if the same holds
of those above it. -/
theorem find?_notHost (h : w.LeadsTo v) (hc : w.Rooted c)
    (hn : ∀ n, .made n ∈ w.lineage c → w.Rooted (.made n) ∧ ¬ w.IsHost n) (key : String) :
    v.find? c key = w.find? c key := by
  induction h with
  | refl => rfl
  | later hv hl ih => exact (hl.find? (hv.rooted hc) key).trans ih
  | named names _ ih => exact ih
  | registered hosts _ ih => exact ih
  | declared x hv hhost hm ih =>
    refine (find?_setAttribute (.inr fun hmem => ?_) _).trans ih
    rw [hv.lineage hc] at hmem
    obtain ⟨hroot, hnot⟩ := hn _ hmem
    obtain ⟨k, f, hf⟩ := hhost
    exact hnot ⟨k, f, (hv.find? hroot (by decide)).symm.trans hf⟩

end LeadsTo

theorem Further.leadsTo {p p' : Draft} {D' : Definition Stored} {C C' : Nat → Prop}
    (h : w.Further v p p' D' C C') : w.LeadsTo v := LeadsTo.refl.later h.later

end World

namespace Session

theorem leadsTo_define {w : World} {C : Nat → Prop} (hb : w.Bundled) (hd : w.HoldsData C)
    (id : String) (name : Literal) {a : Answer}
    (ha : (perform w (.define id name none)).1.outcome = .ok a) :
    w.LeadsTo (perform w (.define id name none)).2 := by
  obtain ⟨_, _, _, _, _, _, _, u, hlater, hu⟩ := perform_define hb hd id name ha
  rw [hu]
  exact (World.LeadsTo.refl.later hlater).named _

theorem exists_perform {w : World} {step : Step} (h : (perform w step).1.outcome.isOk = true) :
    ∃ a log, perform w step = (⟨.ok a, log⟩, (perform w step).2) := by
  cases hp : perform w step with
  | mk reply v =>
    obtain ⟨outcome, log⟩ := reply
    rw [hp] at h
    cases outcome with
    | error f => cases h
    | ok a => exact ⟨a, log, rfl⟩

/-! ## Steps that call -/

theorem exec_callObject {w : World} {i : String} {x : Value} (h : Table.find? w.objectIds i = some x)
    (name : String) (args : List Literal) (named : Literal.Rows) :
    (machine.step (.callObject i name args named)).exec w =
      ((Machine.nested 999).callAttribute x name args named).exec w := by
  have found : (Run.objectById i).exec w = (.ok x, w) := by
    unfold Run.objectById Run.resolveId
    rw [Run.exec_bind, Run.exec_world]
    dsimp only
    rw [h]
    rfl
  have step : machine.step (.callObject i name args named) = (do
      (Machine.nested 999).callAttribute (← Run.objectById i) name args named) := rfl
  rw [step, Run.exec_bind, found]

theorem exec_callClass {w : World} {i : String} {c : ClassRef} (h : Table.find? w.classIds i = some c)
    (name : String) (args : List Literal) (named : Literal.Rows) :
    (machine.step (.callClass i name args named)).exec w =
      ((Machine.nested 999).callAttribute (World.classValue c) name args named).exec w := by
  have found : (Run.classById i).exec w = (.ok c, w) := by
    rw [exec_classById (b := w) (w := w) rfl, h]
  have step : machine.step (.callClass i name args named) = (do
      (Machine.nested 999).callAttribute (World.classValue (← Run.classById i)) name args named) := rfl
  rw [step, Run.exec_bind, found]

/-! ## Steps that adapt -/

section Adapted

variable {w v : World} {d c : String} {p : Draft} {D : Definition Stored} {C : Nat → Prop}
  {base : Option String} {b b' : ClassRef} {s : Shelf} {t : ParameterTable}
  {config : Option ConfigDraft} {answer : Answer} {log : List Record}

theorem MeetsFunctionHost.later_toLlm (h : MeetsFunctionHost w d p D C base b s t)
    (hl : perform w (.toLlm (some d) c base) = (⟨.ok answer, log⟩, v)) :
    ∃ u, w.Later u (fun _ => False) ∧ v = u.named v.names := by
  obtain ⟨u, text, names, rows, hlater, hv, -⟩ :=
    perform_toLlm h.toHolds h.host h.bases (a := answer) (by rw [hl])
  rw [hl] at hv
  subst hv
  exact ⟨u, hlater, rfl⟩

/-- A step that adapts a definition leaves the classes that are there as they are. -/
theorem MeetsFunctionHost.own?_toLlm (h : MeetsFunctionHost w d p D C base b s t)
    (hl : perform w (.toLlm (some d) c base) = (⟨.ok answer, log⟩, v)) {k : Nat}
    (hk : w.Rooted (.made k)) (name : String) : v.own? (.made k) name = w.own? (.made k) name := by
  obtain ⟨u, hlater, hv⟩ := h.later_toLlm hl
  rw [hv]
  show u.own? (.made k) name = _
  refine hlater.own? ?_ name
  rintro _ ⟨⟩
  exact hk k List.mem_cons_self

theorem MeetsFunctionHost.leadsTo_toLlm (h : MeetsFunctionHost w d p D C base b s t)
    (hl : perform w (.toLlm (some d) c base) = (⟨.ok answer, log⟩, v)) : w.LeadsTo v := by
  obtain ⟨u, text, names, rows, hlater, hv, -⟩ :=
    perform_toLlm h.toHolds h.host h.bases (a := answer) (by rw [hl])
  rw [hl] at hv
  subst hv
  exact (World.LeadsTo.refl.later hlater).named _

theorem MeetsServingHost.leadsTo_toMcp (h : MeetsServingHost w d p D C base b)
    (hs : perform w (.toMcp (some d) c base config) = (⟨.ok answer, log⟩, v)) : w.LeadsTo v := by
  obtain ⟨u, n, _, _, _, _, _, _, hlater, _, hv, -⟩ :=
    perform_toMcp h.toHolds h.host h.bases (a := answer) (by rw [hs])
  rw [hs] at hv
  subst hv
  exact (World.LeadsTo.refl.later hlater).named _

/-- A step that adapts a definition for a serving host names the class that it makes, and no other. -/
theorem MeetsServingHost.classIds_toMcp (h : MeetsServingHost w d p D C base b)
    (hs : perform w (.toMcp (some d) c base config) = (⟨.ok answer, log⟩, v)) :
    ∃ made, v.classIds = Table.insert c made w.classIds := by
  obtain ⟨u, n, _, _, _, _, _, _, -, _, hv, -⟩ :=
    perform_toMcp h.toHolds h.host h.bases (a := answer) (by rw [hs])
  rw [hs] at hv
  subst hv
  exact ⟨_, rfl⟩

/-- A definition that was adapted for a function-calling host can still be adapted for the class that
stands for serving hosts. -/
theorem MeetsServingHost.after_toLlm (h : MeetsServingHost w d p D C none b')
    (hf : MeetsFunctionHost w d p D C base b s t)
    (hl : perform w (.toLlm (some d) c base) = (⟨.ok answer, log⟩, v)) :
    MeetsServingHost v d p D C none b' := by
  obtain ⟨u, text, names, rows, hlater, hv, -⟩ :=
    perform_toLlm hf.toHolds hf.host hf.bases (a := answer) (by rw [hl])
  rw [hl] at hv
  subst hv
  have hu := h.further (h.unchanged hlater)
  exact { hu.toDeclares.named _ with
    named := hu.named
    host := hu.host.named _
    bases := hu.bases }

theorem MeetsServingHost.holds_toMcp (h : MeetsServingHost w d p D C base b)
    (hp : (perform w (.toMcp (some d) c base config)).1.outcome = .ok answer) :
    Holds (perform w (.toMcp (some d) c base config)).2 d p D C := by
  obtain ⟨u, n, _, _, _, _, _, _, hlater, _, hv, _⟩ :=
    perform_toMcp h.toHolds h.host h.bases hp
  rw [hv]
  exact ⟨(h.unchanged hlater).declares.named _,
    (congrArg (fun names : World.Names => Table.find? names.definitions d) hlater.names).trans h.named⟩

end Adapted

/-! ## Sessions that declare -/

/-- A session that starts with a definition and declares things of it. -/
def declaring (name : Literal) (ops : List Builder) : World :=
  (performAll (perform start (.define "d" name none)).2 (ops.map (Builder.step "d"))).2

/-- A definition that a session makes and declares can be adapted to the classes that are there. -/
theorem defining_meets {w : World} {C : Nat → Prop} {base base' : Option String} {b b' : ClassRef}
    {s : Shelf} {t : ParameterTable} (hb : w.Bundled) (hd : w.HoldsData C) (hf : w.FunctionBase b s t C)
    (hreads : ∀ k a, w.find? b "__getattribute__" ≠ some (.made k, a))
    (hbase : Bases w llmHost base b) (hs : w.ServingBase b') (hbase' : Bases w mcpHost base' b')
    {d : String} {name : Literal} (ops : List Builder)
    (h : (perform w (.define d name none)).1.outcome.isOk = true) :
    ∃ v p D C' x, (performAll (perform w (.define d name none)).2 (ops.map (Builder.step d))).2 = v ∧
      MeetsFunctionHost v d p D C' base b s t ∧ MeetsServingHost v d p D C' base' b' ∧
      Definition.Built { name := x } ops D ∧
      (∀ scope key, D.helperBlock? scope key = lastHelper ops scope key) ∧ w.LeadsTo v ∧
      Machine.reservedNames v (World.classValue b) = Machine.reservedNames w (World.classValue b) := by
  obtain ⟨a, log, ha⟩ := exists_perform h
  have ha : (perform w (.define d name none)).1.outcome = .ok a := by rw [ha]
  obtain ⟨p, x, C', hmeets, hserves⟩ := perform_define_meets hb hd hf hreads hbase hs hbase' d name ha
  obtain ⟨_, _, _, _, _, _, _, u, hlater, hu⟩ := perform_define hb hd d name ha
  obtain ⟨p', D', C'', -, hbuilt, hhelp, hfur⟩ := performAll_helpers hmeets.toHolds ops
  refine ⟨_, p', D', C'', x, rfl, hmeets.further hfur, hserves.further hfur, hbuilt,
    fun scope key => ?_, (leadsTo_define hb hd d name ha).trans hfur.leadsTo, ?_⟩
  · rw [hhelp]
    cases scope <;> exact Option.or_none
  · rw [Machine.reservedNames_later hfur.later hmeets.host.rooted, hu]
    exact Machine.reservedNames_later (v := u) hlater hf.rooted

theorem declaring_meets {name : Literal} (ops : List Builder)
    (h : (perform start (.define "d" name none)).1.outcome.isOk = true) :
    ∃ p D C x, MeetsFunctionHost (declaring name ops) "d" p D C none functionClassRef ⟨0, []⟩ [] ∧
      MeetsServingHost (declaring name ops) "d" p D C none servingClassRef ∧
      Definition.Built { name := x } ops D ∧
      (∀ scope key, D.helperBlock? scope key = lastHelper ops scope key) ∧
      start.LeadsTo (declaring name ops) ∧
      Machine.reservedNames (declaring name ops) (World.classValue functionClassRef) =
        Machine.reservedNames start (World.classValue functionClassRef) := by
  obtain ⟨_, p, D, C, x, rfl, meets⟩ := defining_meets bundled_start holdsData_start functionBase_start
    reads_start (show Bases start llmHost none functionClassRef from rfl) servingBase_start
    (show Bases start mcpHost none servingClassRef from rfl) ops h
  exact ⟨p, D, C, x, meets⟩

end Session

end Toolwright
