import Toolwright.Proofs.Binding.Snapshot

/-!
# Sessions that go on

Once a definition was adapted, a session can declare more of it, declare things on the class, and call
objects of the class and of others. Whatever it does, the class is a snapshot of the definition, the
definition is what was declared of it, and what is executed is what it stores last.
-/

namespace Toolwright

set_option autoImplicit false

namespace World

variable {w v : World} {n : Nat} {keys keys' : List String} {p : Draft} {D : Definition Stored}
  {q : SchemaPlace} {properties : Named} {required : List String} {C : Nat → Prop}

theorem KeepsMethods.mono (h : w.KeepsMethods v n keys) (hk : ∀ key ∈ keys, key ∈ keys') :
    w.KeepsMethods v n keys' where
  rooted := h.rooted
  finds key hkey := h.finds key fun hm => hkey (hk key hm)
  runs := h.runs

theorem Drafts.schema_apart (h : w.Drafts p D) (hs : w.SchemaAt q properties required C) :
    ¬ p.changes q.own := by
  have hcell := hs.object.cell
  have unlike (helpers : List (String × Stored)) :
      w.cells[q.own]? ≠ some (.ofRows (helperRows helpers)) := by
    rw [hcell]
    cases helpers <;>
      simp [Value.ofRows, helperRows, Stored.value, routineValue, cellValue, World.placeValue]
  rintro (he | he | he | he)
  · have he := hcell.symm.trans (he ▸ h.object.cell)
    simp [Value.ofRows, Definition.fields] at he
  · cases hcell.symm.trans (he ▸ h.params)
  · exact unlike _ (he ▸ h.ofInstance)
  · exact unlike _ (he ▸ h.ofClass)

end World

namespace Session

open Machine World

variable {w v u : World} {d c : String} {p p' : Draft} {D E : Definition Stored} {C C' : Nat → Prop}
  {n m : Nat} {card : FunctionCard} {served : ServingCard} {s : Shelf}

/-! ## What a session does -/

inductive Uses (c : String) (names : List String) : World → World → Prop
  | refl (w : World) : Uses c names w w
  | declares {w v : World} {name : String} (h : Uses c names w v) (hname : name ∈ names)
    (hx : name = "input_schema" → v.extras = []) (args : List Literal) (named : Literal.Rows) :
    Uses c names w (perform v (.callClass c name args named)).2
  | plays {w v : World} {steps : List Step} (h : Uses c names w v) (hx : v.extras = [])
    (hnew : ∀ step ∈ steps, ∀ i, step.object? = some i → Table.find? v.objectIds i = none)
    (hp : ∀ step ∈ steps, Plays v steps step) : Uses c names w (performAll v steps).2

inductive GoesOn (d c : String) (names : List String) (w : World) (b₀ : Option Block) :
    World → Option Block → Prop
  | refl : GoesOn d c names w b₀ w b₀
  | builds {v : World} {b : Option Block} (h : GoesOn d c names w b₀ v b) (op : Builder) :
    GoesOn d c names w b₀ (perform v (op.step d)).2
      ((op.stored? (perform v (op.step d)).1).or b)
  | uses {v u : World} {b : Option Block} (h : GoesOn d c names w b₀ v b) (hu : Uses c names v u) :
    GoesOn d c names w b₀ u b

theorem BesideFunction.uses (h : BesideFunction w d c p D C n card s)
    (hu : Uses c functionDeclarations w v) :
    ∃ C' card' s', BesideFunction v d c p D C' n card' s' ∧ DefinitionKept w v d ∧
      w.KeepsMethods v n ["_name", "_description"] := by
  induction hu with
  | refl =>
    exact ⟨C, card, s, h, .refl w d,
      (World.Later.refl w fun _ => False).keepsMethods h.host.methods.rooted _⟩
  | declares _ hname _ args named ih =>
    obtain ⟨C₁, card₁, s₁, h₁, kept, keeps⟩ := ih
    obtain ⟨C', card', s', h', kept', keeps'⟩ := h₁.declares hname args named
    exact ⟨C', card', s', h', kept.trans kept', keeps.trans keeps'⟩
  | plays _ hx hnew hp ih =>
    obtain ⟨C₁, card₁, s₁, h₁, kept, keeps⟩ := ih
    obtain ⟨hextends, hclasses, hids⟩ := extends_of_plays hx hnew hp
    obtain ⟨h', kept'⟩ := h₁.extends hextends hids hclasses
    exact ⟨C₁, card₁, s₁, h', kept.trans kept',
      keeps.trans (hextends.keepsMethods h₁.host.methods.rooted _)⟩

theorem BesideServing.uses (h : BesideServing w d c p D C n m served)
    (hu : Uses c servingDeclarations w v) :
    ∃ C' served', BesideServing v d c p D C' n m served' ∧ DefinitionKept w v d ∧
      w.KeepsMethods v n declaredNames ∧ w.KeepsMethods v m [] := by
  induction hu with
  | refl =>
    have hl := World.Later.refl w fun _ => False
    exact ⟨C, served, h, .refl w d, hl.keepsMethods h.host.methods.rooted _,
      hl.keepsMethods h.helpers _⟩
  | declares _ hname hx args named ih =>
    obtain ⟨C₁, served₁, h₁, kept, keeps, helpers⟩ := ih
    obtain ⟨C', served', h', kept', keeps', helpers'⟩ := h₁.declares hname hx args named
    exact ⟨C', served', h', kept.trans kept', keeps.trans keeps', helpers.trans helpers'⟩
  | plays _ hx hnew hp ih =>
    obtain ⟨C₁, served₁, h₁, kept, keeps, helpers⟩ := ih
    obtain ⟨hextends, hclasses, hids⟩ := extends_of_plays hx hnew hp
    obtain ⟨h', kept'⟩ := h₁.extends hextends hids hclasses
    exact ⟨C₁, served₁, h', kept.trans kept',
      keeps.trans (hextends.keepsMethods h₁.host.methods.rooted _),
      helpers.trans (hextends.keepsMethods h₁.helpers _)⟩

structure Rebuilt (p p' : Draft) (D E : Definition Stored) (b : Option Block) : Prop where
  name : E.name = D.name
  object : p'.object = p.object
  block : E.block.map (·.block) = b

theorem Rebuilt.step {q : Draft} {F : Definition Stored} {b b' : Option Block} {op : Builder}
    (h : Rebuilt p p' D E b) (hn : E.Next op F ∨ F = E) (hf : w.Further v p' q F C C')
    (hb : F.block.map (·.block) = b'.or (E.block.map (·.block))) : Rebuilt p q D F (b'.or b) where
  name := by
    rcases hn with hn | rfl
    · exact (name_of_next hn).trans h.name
    · exact h.name
  object := by
    rw [hf.place]
    exact h.object
  block := by
    rw [hb, h.block]

theorem BesideFunction.goesOn (h : BesideFunction w d c p D C n card s) {b : Option Block}
    (hg : GoesOn d c functionDeclarations w (D.block.map (·.block)) v b) :
    ∃ p' E C' card' s', BesideFunction v d c p' E C' n card' s' ∧ Rebuilt p p' D E b ∧
      w.KeepsMethods v n ["_name", "_description"] := by
  induction hg with
  | refl =>
    exact ⟨p, D, C, card, s, h, ⟨rfl, rfl, rfl⟩,
      (World.Later.refl w fun _ => False).keepsMethods h.host.methods.rooted _⟩
  | builds _ op ih =>
    obtain ⟨p₁, E₁, C₁, card₁, s₁, h₁, built, keeps⟩ := ih
    obtain ⟨p', E', C', -, hn, -, hblock, hfur⟩ := perform_builder h₁.toHolds op
    obtain ⟨h', kept⟩ := h₁.further hfur
    exact ⟨p', E', C', card₁, s₁, h', built.step (hn.imp_right And.left) hfur hblock,
      keeps.trans (kept.keeps.mono nofun)⟩
  | uses _ hu ih =>
    obtain ⟨p₁, E₁, C₁, card₁, s₁, h₁, built, keeps⟩ := ih
    obtain ⟨C', card', s', h', -, keeps'⟩ := h₁.uses hu
    exact ⟨p₁, E₁, C', card', s', h', built, keeps.trans keeps'⟩

theorem BesideServing.goesOn (h : BesideServing w d c p D C n m served) {b : Option Block}
    (hg : GoesOn d c servingDeclarations w (D.block.map (·.block)) v b) :
    ∃ p' E C' served', BesideServing v d c p' E C' n m served' ∧ Rebuilt p p' D E b ∧
      w.KeepsMethods v n declaredNames ∧ w.KeepsMethods v m [] := by
  induction hg with
  | refl =>
    have hl := World.Later.refl w fun _ => False
    exact ⟨p, D, C, served, h, ⟨rfl, rfl, rfl⟩, hl.keepsMethods h.host.methods.rooted _,
      hl.keepsMethods h.helpers _⟩
  | builds _ op ih =>
    obtain ⟨p₁, E₁, C₁, served₁, h₁, built, keeps, helpers⟩ := ih
    obtain ⟨p', E', C', -, hn, -, hblock, hfur⟩ := perform_builder h₁.toHolds op
    obtain ⟨h', kept⟩ := h₁.further hfur
    exact ⟨p', E', C', served₁, h', built.step (hn.imp_right And.left) hfur hblock,
      keeps.trans (kept.keeps.mono nofun), helpers.trans kept.helpers⟩
  | uses _ hu ih =>
    obtain ⟨p₁, E₁, C₁, served₁, h₁, built, keeps, helpers⟩ := ih
    obtain ⟨C', served', h', -, keeps', helpers'⟩ := h₁.uses hu
    exact ⟨p₁, E₁, C', served', h', built, keeps.trans keeps', helpers.trans helpers'⟩

/-! ## Classes that were just made -/

section Adapted

variable {base : Option String} {b : ClassRef} {t : ParameterTable} {config : Option ConfigDraft}
  {answer : Answer} {log : List Record}

theorem MeetsFunctionHost.beside_toLlm (h : MeetsFunctionHost w d p D C base b s t)
    (hl : perform w (.toLlm (some d) c base) = (⟨.ok answer, log⟩, v)) :
    ∃ card s', BesideFunction v d c p D C w.classes.length card s' := by
  obtain ⟨u, text, names, rows, hlater, hv, -, -, htool, hrows⟩ :=
    perform_toLlm h.toHolds h.host h.bases (a := answer) (by rw [hl])
  rw [hl] at hv
  subst hv
  have hret := hlater.retains h.data fun _ _ => id
  have hdescription : D.description.Within (w.data C) :=
    (h.values _ (List.mem_cons_of_mem _ List.mem_cons_self)).1
  have hhost := (htool.named { u.names with
    classes := Table.insert c (.made w.classes.length) w.classIds }).functionHost
      (hdescription.mono hret.data_below)
  have fresh : ∀ k ∈ p.cells, ¬ w.cells.length ≤ k := fun k hk =>
    Nat.not_le_of_lt (h.toDrafts.lt hk)
  refine ⟨_, _, ⟨⟨(h.unchanged hlater).declares.named _, ?_⟩,
    (Table.find?_insert _ _ _ _).trans (if_pos rfl), hhost.1, fun k hk hc => ?_,
    fun hk => fresh _ hk (Nat.le_refl _)⟩⟩
  · exact (congrArg (fun names : World.Names => Table.find? names.definitions d) hlater.names).trans
      h.named
  · rcases List.mem_cons.mp hk with rfl | hk
    · exact fresh _ (Draft.changes_cells hc) (Nat.le_refl _)
    · obtain ⟨row, hrow, rfl⟩ := List.mem_map.mp hk
      rcases hrows row hrow with hold | hnew
      · exact h.shelfApart _ (List.mem_cons_of_mem _ (List.mem_map_of_mem hold)) hc
      · exact fresh _ (Draft.changes_cells hc) hnew

theorem MeetsServingHost.beside_toMcp (h : MeetsServingHost w d p D C base b)
    (hl : perform w (.toMcp (some d) c base config) = (⟨.ok answer, log⟩, v)) :
    ∃ n indent text C' served, BesideServing v d c p D C' (n + 1) n served ∧
      (∃ k, v.find? (.made (n + 1)) "call" =
        some (k, .ofClass (.serves (objectValue p.object) n indent text))) ∧
      (D.helper? "__getattribute__" = none → v.Takes D n []) := by
  obtain ⟨u, n, text, _, x, _, indent, C', hlater, -, hv, -, -, -, -, hd, hC, hnew, htool⟩ :=
    perform_toMcp h.toHolds h.host h.bases (a := answer) (by rw [hl])
  rw [hl] at hv
  subst hv
  have hret := hlater.retains h.data fun _ _ => id
  have hdescription : D.description.Within (w.data C) :=
    (h.values _ (List.mem_cons_of_mem _ List.mem_cons_self)).1
  let ids : World.Names := { u.names with classes := Table.insert c (.made (n + 1)) w.classIds }
  have htool' := htool.named ids
  have hbase := (hlater.servingBase h.host).named ids
  have hu := (h.unchanged hlater).declares
  obtain ⟨q, hhost, -⟩ := htool'.servingHost hbase
    ((hdescription.mono hret.data_below).mono (u.data_mono hC))
  obtain ⟨own, hcls, -⟩ := htool'.helpers
  obtain ⟨own', q', properties, hcls', hown', hat, -⟩ := htool'.tool
  have hobject : (u.named ids).lineage (.builtIn .object) = [.builtIn .object] := rfl
  refine ⟨n, indent, text, C', _, ⟨⟨?_, ?_⟩, (Table.find?_insert _ _ _ _).trans (if_pos rfl), hhost,
    ?_, hcls.rooted ?_, ?_⟩, ⟨_, hcls'.find?_own hown'.call⟩,
    fun hreads => (htool.takes hu.toDrafts hreads).named ids⟩
  · exact (hu.mono hd hC fun k hk hc => (hnew k hc).resolve_right
      (Nat.not_le_of_lt (h.toDrafts.lt hk))).named ids
  · exact (congrArg (fun names : World.Names => Table.find? names.definitions d) hlater.names).trans
      h.named
  · rintro k ⟨o, ho, obj, hobj, hk⟩
    rw [hcls'.own?, hown'.schema] at ho
    cases ho
    cases hat.object.object.symm.trans hobj
    cases hk
    exact (hu.toDrafts.named ids).schema_apart hat
  · intro k hk
    rw [hobject] at hk
    simp at hk
  · rw [hcls.lineage, hobject]
    simp

end Adapted

/-! ## Late binding -/

/-- At a point of a session a class of a function-calling host is what it was made of a definition,
whatever more is declared of that, and the definition is what was declared of it, however the class is
used. Objects of the class execute a block. -/
structure BindsFunction (v u : World) (d c : String) (D : Definition Stored) (n : Nat)
    (reserved : List String) (b : Option Block) : Prop where
  keeps : v.KeepsMethods u n ["_name", "_description"]
  kept : ∀ ops : List Builder, FunctionKept u (performAll u (ops.map (Builder.step d))).2 c n
  unchanged : ∃ p E, E.block.map (·.block) = b ∧ (∃ C, Holds u d p E C) ∧
    ∀ u', Uses c functionDeclarations u u' → DefinitionKept u u' d ∧ ∃ C, Holds u' d p E C
  executes : D.helper? "__getattribute__" = none → u.RunsLast n D.name b
  resolves : D.helper? "__getattribute__" = none → u.Resolves n reserved D.helperBlock?

/-- At a point of a session a class of a serving host and the class of its helpers are what they were
made of a definition, and that is what was declared of it. Calls execute a block. -/
structure BindsServing (v u : World) (d c : String) (D : Definition Stored) (n m : Nat)
    (indent : Value) (b : Option Block) : Prop where
  keeps : v.KeepsMethods u n declaredNames
  helpers : v.KeepsMethods u m []
  kept : ∀ ops : List Builder, ServingKept u (performAll u (ops.map (Builder.step d))).2 c n m
  unchanged : ∃ p E, E.block.map (·.block) = b ∧ (∃ C, Holds u d p E C) ∧
    ∀ u', Uses c servingDeclarations u u' → DefinitionKept u u' d ∧ ∃ C, Holds u' d p E C
  executes : u.ServesLast (.made n) m indent D.name b
  resolves : D.helper? "__getattribute__" = none → u.Resolves m [] D.helperBlock?

section Late

variable {base base' : Option String} {b b' : ClassRef} {t : ParameterTable}

/-- A class that a definition was adapted to is a snapshot of it, for a host of either kind: it tells what
it told, and finds and runs the helpers that it took over, whatever is declared of the definition. The
definition is changed by nothing that is declared on the class and by no call. What is executed is the
block that the definition stores last, and as long as it stores none there is the fault that says so. -/
theorem definitions_bind_late (hf : MeetsFunctionHost w d p D C base b s t)
    (hm : MeetsServingHost w d p D C base' b') (c : String) :
    (∀ a log v, perform w (.toLlm (some d) c base) = (⟨.ok a, log⟩, v) →
      ∃ n, Table.find? v.classIds c = some (.made n) ∧
        ∀ u x, GoesOn d c functionDeclarations v (D.block.map (·.block)) u x →
          BindsFunction v u d c D n (reservedNames w (World.classValue b)) x) ∧
    ∀ config a log v, perform w (.toMcp (some d) c base' config) = (⟨.ok a, log⟩, v) →
      ∃ n m indent, Table.find? v.classIds c = some (.made n) ∧
        ∀ u x, GoesOn d c servingDeclarations v (D.block.map (·.block)) u x →
          BindsServing v u d c D n m indent x := by
  refine ⟨fun a log v hl => ?_, fun config a log v hl => ?_⟩
  · obtain ⟨card, s', hv⟩ := hf.beside_toLlm hl
    refine ⟨_, hv.found, fun u x hg => ?_⟩
    obtain ⟨p', E, C', card', s₁, hu, built, keeps⟩ := hv.goesOn hg
    have executes (hreads : D.helper? "__getattribute__" = none) :=
      hf.executesFor_toLlm hreads hl
    refine ⟨keeps, fun ops => ?_, ⟨p', E, built.block, ⟨C', hu.toHolds⟩, fun u' huses => ?_⟩,
      fun hreads => ?_, fun hreads => ?_⟩
    · obtain ⟨_, _, _, -, -, hfur⟩ := performAll_builders hu.toHolds ops
      exact (hu.further hfur).2
    · obtain ⟨C₁, _, _, hu', kept, -⟩ := hu.uses huses
      exact ⟨kept, C₁, hu'.toHolds⟩
    · have hfor := (executes hreads).1.kept keeps (by decide) (by decide)
      rw [← built.object] at hfor
      have hlast := hfor.runsLast hu.host hu.toDeclares
      rwa [built.name, built.block] at hlast
    · have set : ∀ key ∈ ["_name", "_description"], key ∈ setNames := by decide
      exact ((executes hreads).2.kept keeps (by decide) fun key hk =>
        reserved_setNames hf.host key (set key hk)).resolves
  · obtain ⟨m, indent, text, C₀, served, hv, hcall, htakes⟩ := hm.beside_toMcp hl
    refine ⟨_, m, indent, hv.found, fun u x hg => ?_⟩
    obtain ⟨p', E, C', served', hu, built, keeps, helpers⟩ := hv.goesOn hg
    refine ⟨keeps, helpers, fun ops => ?_, ⟨p', E, built.block, ⟨C', hu.toHolds⟩, fun u' huses => ?_⟩,
      ?_, fun hreads => ((htakes hreads).kept helpers (by decide) nofun).resolves⟩
    · obtain ⟨_, _, _, -, -, hfur⟩ := performAll_builders hu.toHolds ops
      exact (hu.further hfur).2
    · obtain ⟨C₁, _, hu', kept, -⟩ := hu.uses huses
      exact ⟨kept, C₁, hu'.toHolds⟩
    · have hserves : ∃ k, u.find? (.made (m + 1)) "call" =
          some (k, .ofClass (.serves (objectValue p'.object) m indent text)) := by
        rw [keeps.finds _ (by decide), built.object]
        exact hcall
      have hlast := hu.toDeclares.servesLast hserves
      rwa [built.name, built.block] at hlast

end Late

def telling (text : String) : Block := .mk [] none (.lit (.str text))

def toldTool : World :=
  declaring (.str "tool") [.help .ofInstance "greet" (telling "hello"), .execute (telling "first")]

set_option maxRecDepth 100000 in
theorem definitions_bind_late_stored : ∃ p D C n v m k indent v',
    MeetsFunctionHost toldTool "d" p D C none functionClassRef ⟨0, []⟩ [] ∧
    MeetsServingHost toldTool "d" p D C none servingClassRef ∧
    v = (perform toldTool (.toLlm (some "d") "T" none)).2 ∧
    Table.find? v.classIds "T" = some (.made n) ∧
    (perform v ((Builder.execute (telling "second")).step "d")).2.RunsLast n D.name
      (some (telling "second")) ∧
    (perform v ((Builder.execute (telling "second")).step "d")).2.Resolves n
      (reservedNames toldTool (World.classValue functionClassRef)) D.helperBlock? ∧
    v' = (perform toldTool (.toMcp (some "d") "T" none none)).2 ∧
    Table.find? v'.classIds "T" = some (.made m) ∧
    (perform v' ((Builder.execute (telling "second")).step "d")).2.ServesLast (.made m) k indent D.name
      (some (telling "second")) := by
  have told : (perform start (.define "d" (.str "tool") none)).1.outcome.isOk = true ∧
      (perform toldTool (.toLlm (some "d") "T" none)).1.outcome.isOk = true ∧
      (perform (perform toldTool (.toLlm (some "d") "T" none)).2
        ((Builder.execute (telling "second")).step "d")).1.outcome.isOk = true ∧
      (perform toldTool (.toMcp (some "d") "T" none none)).1.outcome.isOk = true ∧
      (perform (perform toldTool (.toMcp (some "d") "T" none none)).2
        ((Builder.execute (telling "second")).step "d")).1.outcome.isOk = true := by
    decide +kernel
  obtain ⟨hdefine, hllm, hllm', hmcp, hmcp'⟩ := told
  obtain ⟨p, D, C, _, hf, hm, -, hhelp, -⟩ := declaring_meets
    [.help .ofInstance "greet" (telling "hello"), .execute (telling "first")] hdefine
  have hreads : D.helper? "__getattribute__" = none :=
    Definition.helper?_none fun scope => by
      rw [hhelp]
      cases scope <;> rfl
  obtain ⟨hfunction, hserving⟩ := definitions_bind_late hf hm "T"
  obtain ⟨a, log, hl⟩ := exists_perform hllm
  obtain ⟨a', log', hl'⟩ := exists_perform hmcp
  obtain ⟨n, hn, hbinds⟩ := hfunction a log _ hl
  obtain ⟨m, k, indent, hm', hbinds'⟩ := hserving none a' log' _ hl'
  have stored := hbinds _ _ (GoesOn.refl.builds (.execute (telling "second")))
  have served := hbinds' _ _ (GoesOn.refl.builds (.execute (telling "second")))
  unfold Builder.stored? at stored served
  rw [if_pos hllm'] at stored
  rw [if_pos hmcp'] at served
  exact ⟨p, D, C, n, _, m, k, indent, _, hf, hm, rfl, hn, stored.executes hreads,
    stored.resolves hreads, rfl, hm', served.executes⟩

def reaching : List (List Step) :=
  [[.define "d" (.str "tool") none,
      .help (some "d") .ofInstance "change" (.mk [] none
        (.helper "description" [.lit (.str "changed")] [])),
      .execute (some "d") (.mk [] none (.classHelper "change" [.getAttr "definition" .null] [])),
      .toLlm (some "d") "L" none, .new "i" "L", .callObject "i" "execute" [] [],
      .describe (some "d") .null],
    [.define "d" (.str "tool") none,
      .help (some "d") .ofInstance "__getattribute__" (.mk [("name", none)] none (.lit .null)),
      .execute (some "d") (telling "ran"), .toLlm (some "d") "L" none, .new "i" "L",
      .callObject "i" "execute" [] []],
    [.define "d" (.str "tool") none,
      .execute (some "d") (.mk [] none (.seq [.setAttr "execute" (.lit .null), .lit (.str "ran")])),
      .toLlm (some "d") "L" none, .new "i" "L", .callObject "i" "execute" [] [],
      .callObject "i" "execute" [] []]]

set_option maxRecDepth 100000 in
/-- A definition is changed by a block that is executed, and an execution runs another block or none than
the definition stores. -/
theorem reaching_told :
    reaching.map (fun steps => (replies 30 steps).filterMap textTold) =
      [["tool", "changed"], ["tool"], ["tool", "ran"]] := by
  decide +kernel

end Session

end Toolwright
