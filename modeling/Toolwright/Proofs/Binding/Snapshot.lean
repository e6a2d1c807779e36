import Toolwright.Proofs.Adaptation.Delivery
import Toolwright.Proofs.Binding.Apart

/-!
# Snapshots of definitions

A class that was made of a definition keeps what the definition declared then: its name, its description,
its parameters and its helpers. What it executes is what the definition stores when it is executed.

A session goes on to declare things of a definition and on a class that was made of it, and executes what
the definition stores, in any order. The class stays the snapshot that it was, and the definition is
changed by nothing but what is declared of it.
-/

namespace Toolwright

set_option autoImplicit false

/-! ## Blocks that are bound late -/

namespace World

variable {w v u : World} {n m d : Nat} {C C' own : Nat → Prop} {keys : List String}
  {p : Draft} {D E : Definition Stored} {reserved : List String}

/-! ## Methods that a class keeps -/

/-- A class finds what it found, but under some names, and every function runs what it ran. -/
structure KeepsMethods (w v : World) (n : Nat) (keys : List String) : Prop where
  rooted : v.Rooted (.made n)
  finds : ∀ key ∉ keys, v.find? (.made n) key = w.find? (.made n) key
  runs : ∀ (r : Nat) (handle : Handle), w.handles[r]? = some handle → v.handles[r]? = some handle

theorem KeepsMethods.trans (h : w.KeepsMethods v n keys) (h' : v.KeepsMethods u n keys) :
    w.KeepsMethods u n keys where
  rooted := h'.rooted
  finds key hk := (h'.finds key hk).trans (h.finds key hk)
  runs r handle hr := h'.runs r handle (h.runs r handle hr)

theorem Later.keepsMethods (hl : w.Later v own) (hn : w.Rooted (.made n)) (keys : List String) :
    w.KeepsMethods v n keys where
  rooted := hl.rooted hn
  finds _ _ := hl.find? hn _
  runs _ _ hr := hl.handle hr

theorem Extends.keepsMethods (h : w.Extends v) (hn : w.Rooted (.made n)) (keys : List String) :
    w.KeepsMethods v n keys where
  rooted := (keepsClass_congr h.classes n).rooted hn
  finds _ _ := find?_congr h.classes _ _
  runs _ _ hr := h.handle hr

theorem Declared.keepsMethods (h : w.Declared v m keys own C C') (hn : w.Rooted (.made n)) :
    w.KeepsMethods v n keys where
  rooted := h.moves.leads.rooted hn
  finds _ hk := h.finds n hn _ (.inl hk)
  runs _ _ hr := h.moves.leads.handle hr

theorem Declared.keepsAll (h : w.Declared v m keys own C C') (hn : w.Rooted (.made n))
    (hm : .made m ∉ w.lineage (.made n)) : w.KeepsMethods v n [] where
  rooted := h.moves.leads.rooted hn
  finds _ _ := h.finds n hn _ (.inr hm)
  runs _ _ hr := h.moves.leads.handle hr

theorem ExecutesFor.kept (h : w.ExecutesFor n d) (hk : w.KeepsMethods v n keys)
    (he : "execute" ∉ keys) (hg : "__getattribute__" ∉ keys) : v.ExecutesFor n d where
  rooted := hk.rooted
  execute := by
    rw [hk.finds _ he]
    exact h.execute
  reads k a := by
    rw [hk.finds _ hg]
    exact h.reads k a

theorem Takes.kept (h : w.Takes D n reserved) (hk : w.KeepsMethods v n keys)
    (hkeys : "__getattribute__" ∉ keys)
    (hreserved : ∀ key ∈ keys, reserved.contains key = true) : v.Takes D n reserved where
  rooted := hk.rooted
  finds name helper hn hr hh := by
    rw [hk.finds name fun hm => by rw [hreserved name hm] at hr; cases hr]
    exact h.finds name helper hn hr hh
  reads k a := by
    rw [hk.finds _ hkeys]
    exact h.reads k a
  instanceBodies row hr := hk.runs _ _ (h.instanceBodies row hr)
  classBodies row hr := hk.runs _ _ (h.classBodies row hr)

end World

/-! ## What is executed -/

def Machine.runLast (m : Machine) (w : World) (name : Value) (stored : Option Block) (self : Value)
    (named : Named) : Run Value :=
  stored.elim (throw (noBlockFault w name)) fun b => m.callBlock b self [] named

namespace World

variable {w v u : World} {n d : Nat} {C : Nat → Prop} {p : Draft} {D : Definition Stored}

theorem Declares.exec_executeOn (h : w.Declares p D C) (k : Nat) (self : Value) (named : Named) :
    ((Machine.nested (k + 2)).executeOn p.object self named).exec w =
      ((Machine.nested k).runLast w D.name (D.block.map (·.block)) self named).exec w := by
  have hshown := h.shows_block
  cases hs : D.block with
  | some s =>
    rw [hs] at hshown
    exact World.exec_executeOn hshown (h.block s hs) k self named
  | none =>
    rw [hs] at hshown
    unfold Machine.executeOn
    rw [Run.exec_bind, show (objectValue p.object) = .opaqueRef (.object p.object) from rfl,
      Machine.exec_noBlock h.data (h.values _ List.mem_cons_self).1 hshown h.shows_name _ w
        (Extends.refl w)]
    rfl

/-- Objects of a class on which nothing else is set execute the block that is stored, with what they are
given, and tell so if there is none. Where they are called by mappings this is what is called. -/
structure RunsLast (w : World) (n : Nat) (name : Value) (stored : Option Block) : Prop where
  execute : ∀ o, w.CalledAsMade o n → ∀ (k : Nat) (named : Named),
    ((Machine.nested (k + 3)).send (objectValue o) "execute" [] named).exec w =
      ((Machine.nested k).runLast w name stored (objectValue o) named).exec w
  call : (∃ k, w.find? (.made n) "call" = some (.made k, .ofObject (.bundled (.host .callFunction)))) →
    ∀ (o j : Nat) (named : Named) (title : Value) (C : Nat → Prop) (k : Nat) (log : List Record),
      w.CalledAsMade o n → w.NamedBy n title C →
      w.cells[j]? = some (.ofRows named) → (Table.keys named).Nodup →
      ((Machine.nested (k + 3)).noteCall (w.titleOf (w.className (.made n)) title)
        " called with: " (.ofRows named)).exec w = (.ok (), { w with log }) →
      ((Machine.nested (k + 4)).send (objectValue o) "call" [cellValue j] []).exec w =
        Run.exec (do
          let result ← (Machine.nested k).runLast w name stored (objectValue o) named
          (Machine.nested (k + 3)).closeCall (objectValue o) result) { w with log }

theorem ExecutesFor.runsLast {s : Shelf} {card : FunctionCard} (h : w.ExecutesFor n p.object)
    (hhost : w.FunctionHost n card s C) (hd : w.Declares p D C) :
    w.RunsLast n D.name (D.block.map (·.block)) where
  execute o ho k named := by
    rw [h.exec_sendStored ho (k + 2), hd.exec_executeOn]
  call hcall o j named title C' k log ho ht hx hn hnote := by
    have takes : w.TakesMappings n p.object :=
      ⟨h, hcall, hhost.methods.finds _ (show ("tool_name", HostMethod.functionName) ∈
        functionMethods by decide)⟩
    have hl : w.Later { w with log } fun _ => False := (Later.refl w _).log log
    have hret := hl.retains hd.data fun _ _ => id
    have hd' : World.Declares { w with log } p D C :=
      (hd.unchanged hl).declares
    have same : Machine.noBlockFault { w with log } D.name = Machine.noBlockFault w D.name := by
      unfold Machine.noBlockFault
      rw [hret.printedOf hd.data (hd.values _ List.mem_cons_self).1]
    rw [takes.exec_sendMapping ho ht hx hn (k + 2) hnote, Run.exec_bind, hd'.exec_executeOn,
      Run.exec_bind]
    unfold Machine.runLast
    rw [same]

/-- A class of a serving host calls the function that is stored on a new helper object, with all arguments
but the server context, and tells so if there is none. -/
structure ServesLast (w : World) (c : ClassRef) (helperClass : Nat) (indent name : Value)
    (stored : Option Block) : Prop where
  runs : ∀ b, stored = some b →
    ∃ s : Stored, s.block = b ∧ w.RunsOn s.handle b ∧ w.DeliversArguments c helperClass indent s
  refuses : stored = none → ∀ (named : Named) (k : Nat),
    ((Machine.nested (k + 1)).send (classValue c) "call" [] named).exec w =
      (.error (Machine.noBlockFault w name), w)

theorem Declares.servesLast {c : ClassRef} {helperClass : Nat} {indent : Value} {text : String}
    (hd : w.Declares p D C) (hf : ∃ k, w.find? c "call" =
      some (k, .ofClass (.serves (objectValue p.object) helperClass indent text))) :
    w.ServesLast c helperClass indent D.name (D.block.map (·.block)) := by
  have hshown := hd.shows_block
  cases hs : D.block with
  | some s =>
    rw [hs] at hshown
    refine ⟨fun b hb => ?_, nofun⟩
    cases hb
    exact ⟨s, rfl, hd.block s hs, deliversArguments hf hshown⟩
  | none =>
    rw [hs] at hshown
    refine ⟨nofun, fun _ named k => ?_⟩
    rw [exec_sendServed hf]
    unfold Machine.serve
    rw [Run.exec_bind, show (objectValue p.object) = .opaqueRef (.object p.object) from rfl,
      Machine.exec_noBlock hd.data (hd.values _ List.mem_cons_self).1 hshown hd.shows_name _ w
        (Extends.refl w)]

end World

/-! ## Snapshots of definitions -/

namespace Session

open Machine World

variable {w v u : World} {d c : String} {p p' : Draft} {D E : Definition Stored} {C C' : Nat → Prop}
  {n m : Nat} {card : FunctionCard} {served : ServingCard} {s : Shelf}

/-! ## What is kept -/

def DefinitionKept (w v : World) (d : String) : Prop :=
  ∀ g : DefinitionGetter, (perform v (g.step d)).1.outcome = (perform w (g.step d)).1.outcome

/-- A class of a function-calling host tells all that it told, and finds and runs what it found. -/
structure FunctionKept (w v : World) (c : String) (n : Nat) : Prop where
  tells : ∀ g : FunctionGetter, (perform v (.callClass c g.attribute [] [])).1.outcome =
    (perform w (.callClass c g.attribute [] [])).1.outcome
  keeps : w.KeepsMethods v n []

/-- A class of a serving host tells all that it told, and finds and runs what it found, and so does the
class of its helpers. -/
structure ServingKept (w v : World) (c : String) (n m : Nat) : Prop where
  tells : ∀ g : ServingGetter, (perform v (.callClass c g.attribute [] [])).1.outcome =
    (perform w (.callClass c g.attribute [] [])).1.outcome
  keeps : w.KeepsMethods v n []
  helpers : w.KeepsMethods v m []

theorem DefinitionKept.refl (w : World) (d : String) : DefinitionKept w w d := fun _ => rfl

theorem DefinitionKept.trans (h : DefinitionKept w v d) (h' : DefinitionKept v u d) :
    DefinitionKept w u d :=
  fun g => (h' g).trans (h g)

theorem name_of_next {op : Builder} (h : D.Next op E) : E.name = D.name := by
  cases h with
  | describe text x => cases x <;> rfl
  | declare | store | drop => rfl
  | help scope name s => cases scope <;> rfl

/-! ## Beside each other -/

/-- A session holds a definition and a class of a function-calling host. What changes of the one is not
what the other stands on. -/
structure BesideFunction (w : World) (d c : String) (p : Draft) (D : Definition Stored)
    (C : Nat → Prop) (n : Nat) (card : FunctionCard) (s : Shelf) : Prop extends Holds w d p D C where
  found : Table.find? w.classIds c = some (.made n)
  host : w.FunctionHost n card s C
  shelfApart : ∀ k ∈ s.cells, ¬ p.changes k
  tableApart : s.cell ∉ p.cells

/-- A session holds a definition, a class of a serving host and another class that this one is not above.
What changes of the definition is not what the schema stands on. -/
structure BesideServing (w : World) (d c : String) (p : Draft) (D : Definition Stored)
    (C : Nat → Prop) (n m : Nat) (served : ServingCard) : Prop extends Holds w d p D C where
  found : Table.find? w.classIds c = some (.made n)
  host : w.ServingHost n served C
  schemaApart : ∀ k, w.HasSchemaCell n k → ¬ p.changes k
  helpers : w.Rooted (.made m)
  below : .made n ∉ w.lineage (.made m)

theorem BesideFunction.further (h : BesideFunction w d c p D C n card s)
    (hf : w.Further v p p' E C C') :
    BesideFunction v d c p' E C' n card s ∧ FunctionKept w v c n := by
  have hm := hf.later.moves fun _ => False
  have hret := hf.later.retains h.data h.not_changes
  have hroot := h.host.methods.rooted
  have kept := h.host.kept (hm.keepsClass hroot not_false) hret hm.objects
    fun k hk x => hm.cells k x (h.shelfApart k hk)
  have found : Table.find? v.classIds c = some (.made n) := by
    rw [show v.classIds = w.classIds from congrArg World.Names.classes hf.later.names]
    exact h.found
  refine ⟨⟨h.toHolds.further hf, found, kept.mono hf.data fun k hk hc => ?_,
    fun k hk => hf.changes ▸ h.shelfApart k hk, fun hk => ?_⟩,
    fun g => function_tells_kept h.bundled hf.declares.bundled h.data hret h.host kept
      (hf.later.className hroot) h.found found g, hf.later.keepsMethods hroot []⟩
  · exact (hf.fresh k hc).elim (h.host.shelf.apart k hk) fun hle =>
      Nat.not_lt_of_le hle (h.host.shelf.lt hk)
  · exact (hf.cells hk).elim h.tableApart fun hle =>
      Nat.not_lt_of_le hle (h.host.shelf.lt List.mem_cons_self)

theorem BesideServing.further (h : BesideServing w d c p D C n m served)
    (hf : w.Further v p p' E C C') :
    BesideServing v d c p' E C' n m served ∧ ServingKept w v c n m := by
  have hm := hf.later.moves fun _ => False
  have hret := hf.later.retains h.data h.not_changes
  have hroot := h.host.methods.rooted
  have kept := h.host.kept (hm.keepsClass hroot not_false) hret hm.objects
    fun k hk x => hm.cells k x (h.schemaApart k hk)
  have found : Table.find? v.classIds c = some (.made n) := by
    rw [show v.classIds = w.classIds from congrArg World.Names.classes hf.later.names]
    exact h.found
  exact ⟨⟨h.toHolds.further hf, found, kept.mono hf.data, fun k hk => hf.changes ▸
      h.schemaApart k (hk.of_moves hm h.host not_false), hf.later.rooted h.helpers,
      hf.later.lineage h.helpers ▸ h.below⟩,
    fun g => serving_tells_kept h.bundled hf.declares.bundled h.data hret h.host kept
      (hf.later.className hroot) h.found found g, hf.later.keepsMethods hroot [],
    hf.later.keepsMethods h.helpers []⟩

theorem Holds.declared {keys : List String} {own : Nat → Prop} (h : Holds w d p D C)
    (hd : w.Declared v n keys own C C') (hC : ∀ k, C k → ¬ own k) (ho : ∀ k ∈ p.cells, ¬ own k) :
    Holds v d p D C' ∧ DefinitionKept w v d := by
  have hret := hd.moves.retains h.data hC
  have hv : Holds v d p D C' := by
    refine ⟨(h.toDeclares.moves hd.moves hC ho).mono hd.data hd.more fun k hk hc => ?_, ?_⟩
    · exact (hd.fresh k hc).resolve_right (Nat.not_le_of_lt (h.toDrafts.lt hk))
    · rw [show v.definitionIds = w.definitionIds from congrArg World.Names.definitions hd.names]
      exact h.named
  exact ⟨hv, fun g => definition_tells_kept h hv hret g⟩

theorem BesideFunction.log (h : BesideFunction w d c p D C n card s) (log : List Record) :
    BesideFunction { w with log } d c p D C n card s :=
  (h.further (h.unchanged ((World.Later.refl w _).log log))).1

theorem BesideServing.log (h : BesideServing w d c p D C n m served) (log : List Record) :
    BesideServing { w with log } d c p D C n m served :=
  (h.further (h.unchanged ((World.Later.refl w _).log log))).1

theorem BesideFunction.declares (h : BesideFunction w d c p D C n card s) {name : String}
    (hname : name ∈ functionDeclarations) (args : List Literal) (named : Literal.Rows) :
    ∃ C' card' s', BesideFunction (perform w (.callClass c name args named)).2 d c p D C' n card' s' ∧
      DefinitionKept w (perform w (.callClass c name args named)).2 d ∧
      w.KeepsMethods (perform w (.callClass c name args named)).2 n ["_name", "_description"] := by
  have hl : w.Later { w with log := [] } fun _ => False := (World.Later.refl w _).log []
  have h₀ := h.log []
  rw [perform_eq, exec_callClass h₀.found]
  rcases hr : ((Machine.nested 999).callAttribute (World.classValue (.made n)) name args named).exec
    { w with log := [] } with ⟨x, v⟩
  obtain ⟨C', card', rows, hd, hhost, hrows⟩ :=
    Machine.callFunction_declared 996 h₀.bundled h₀.data h₀.host hname hr
  have apart : ∀ k, C k → ¬ k = s.cell := by
    rintro _ hk rfl
    exact h.host.shelf.apart _ List.mem_cons_self hk
  obtain ⟨hv, kept⟩ := h₀.toHolds.declared hd apart fun k hk hs => h.tableApart (hs ▸ hk)
  have found : Table.find? v.classIds c = some (.made n) := by
    rw [show v.classIds = w.classIds from congrArg World.Names.classes hd.names]
    exact h.found
  refine ⟨C', card', _, ⟨hv, found, hhost, fun k hk hc => ?_, h.tableApart⟩, kept,
    (hl.keepsMethods h.host.methods.rooted _).trans (hd.keepsMethods h₀.host.methods.rooted)⟩
  rcases List.mem_cons.mp hk with rfl | hk
  · exact h.shelfApart _ List.mem_cons_self hc
  · obtain ⟨row, hrow, rfl⟩ := List.mem_map.mp hk
    rcases hrows row hrow with hold | hnew
    · exact h.shelfApart _ (List.mem_cons_of_mem _ (List.mem_map_of_mem hold)) hc
    · exact Nat.not_lt_of_le hnew (h₀.toDrafts.lt (Draft.changes_cells hc))

theorem BesideServing.declares (h : BesideServing w d c p D C n m served) {name : String}
    (hname : name ∈ servingDeclarations) (he : name = "input_schema" → w.extras = [])
    (args : List Literal) (named : Literal.Rows) :
    ∃ C' served', BesideServing (perform w (.callClass c name args named)).2 d c p D C' n m served' ∧
      DefinitionKept w (perform w (.callClass c name args named)).2 d ∧
      w.KeepsMethods (perform w (.callClass c name args named)).2 n declaredNames ∧
      w.KeepsMethods (perform w (.callClass c name args named)).2 m [] := by
  have hl : w.Later { w with log := [] } fun _ => False := (World.Later.refl w _).log []
  have h₀ := h.log []
  rw [perform_eq, exec_callClass h₀.found]
  rcases hr : ((Machine.nested 999).callAttribute (World.classValue (.made n)) name args named).exec
    { w with log := [] } with ⟨x, v⟩
  obtain ⟨C', served', hd, hhost, hcells⟩ :=
    Machine.callServing_declared 996 h₀.bundled he h₀.data h₀.host hname hr
  obtain ⟨hv, kept⟩ := h₀.toHolds.declared hd (fun _ _ => id) fun _ _ => id
  have found : Table.find? v.classIds c = some (.made n) := by
    rw [show v.classIds = w.classIds from congrArg World.Names.classes hd.names]
    exact h.found
  refine ⟨C', served', ⟨hv, found, hhost, fun k hk hc => ?_, hd.moves.leads.rooted h₀.helpers, ?_⟩, kept,
    (hl.keepsMethods h.host.methods.rooted _).trans (hd.keepsMethods h₀.host.methods.rooted),
    (hl.keepsMethods h.helpers _).trans (hd.keepsAll h₀.helpers h₀.below)⟩
  · rcases hcells k hk with hold | hnew
    · exact h₀.schemaApart k hold hc
    · exact Nat.not_lt_of_le hnew (h₀.toDrafts.lt (Draft.changes_cells hc))
  · rw [hd.moves.leads.lineage h₀.helpers]
    exact h₀.below

theorem Holds.extends (h : Holds w d p D C) (he : w.Extends v)
    (hids : v.definitionIds = w.definitionIds) : Holds v d p D C ∧ DefinitionKept w v d := by
  have hb : v.Bundled := ⟨he.classes ▸ h.bundled.classes, he.extras ▸ h.bundled.places⟩
  have hret := he.retains h.data
  have hv : Holds v d p D C := ⟨h.toDeclares.stays hb hret he.objects he.handles
    fun _ _ _ => he.cell, hids ▸ h.named⟩
  exact ⟨hv, definition_tells_kept h hv hret⟩

theorem BesideFunction.extends (h : BesideFunction w d c p D C n card s) (he : w.Extends v)
    (hids : v.definitionIds = w.definitionIds) (hclasses : v.classIds = w.classIds) :
    BesideFunction v d c p D C n card s ∧ DefinitionKept w v d := by
  obtain ⟨hv, kept⟩ := h.toHolds.extends he hids
  exact ⟨⟨hv, hclasses ▸ h.found, h.host.kept (keepsClass_congr he.classes n) (he.retains h.data)
    he.objects fun _ _ _ => he.cell, h.shelfApart, h.tableApart⟩, kept⟩

theorem BesideServing.extends (h : BesideServing w d c p D C n m served) (he : w.Extends v)
    (hids : v.definitionIds = w.definitionIds) (hclasses : v.classIds = w.classIds) :
    BesideServing v d c p D C n m served ∧ DefinitionKept w v d := by
  obtain ⟨hv, kept⟩ := h.toHolds.extends he hids
  have hk := keepsClass_congr he.classes n
  exact ⟨⟨hv, hclasses ▸ h.found,
    h.host.kept hk (he.retains h.data) he.objects fun _ _ _ => he.cell,
    fun k hc => h.schemaApart k (hc.of_kept hk he.objects h.host),
    (keepsClass_congr he.classes m).rooted h.helpers, lineage_congr he.classes _ ▸ h.below⟩, kept⟩

end Session

end Toolwright
