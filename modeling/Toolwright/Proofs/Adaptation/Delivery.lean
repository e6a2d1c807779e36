import Toolwright.Proofs.Adaptation.Forgetting
import Toolwright.Proofs.Publication.Repetitions
import Toolwright.Proofs.Serving.Hosts

/-!
# Arguments that are delivered

An argument goes through a method of the host before it comes to the block: on a function-calling host
through the one that takes a mapping, on a serving host through the one that makes a helper object.
Both pass it on under its name, but for the one name that the serving host takes for itself.
-/

namespace Toolwright

set_option autoImplicit false

namespace Machine

def noteCall (m : Machine) (name : Value) (verb : String) (x : Value) : Run Unit :=
  Run.note hostsLogger 10 (do
    let tool ← m.text name
    return "Tool " ++ tool ++ verb ++ (← m.printed x))

def closeCall (m : Machine) (self result : Value) : Run Value := do
  m.noteCall (← m.send self "tool_name" [] []) " returned: " result
  return result

def executeOn (m : Machine) (definition : Nat) (self : Value) (named : Named) : Run Value := do
  let block ← m.storedBlock (objectValue definition)
  m.invoke block [self] named

def answerTo (m : Machine) (cls : ClassRef) (indent result : Value) : Run Value := do
  let answers ← m.reach (World.classValue cls) "Response"
  m.answerWith (answers, ← m.resultText result indent)

variable {w : World} {n o j : Nat} {named : Named}

/-! ## The arguments of a mapping -/

theorem exec_textRows (m : Machine) (named : Named) (w : World) :
    (((named.map fun row => (Value.str row.1, row.2)).mapM fun row => do
      return (← m.text row.1, row.2)) : Run Named).exec w = (.ok named, w) := by
  induction named with
  | nil => rfl
  | cons row rows ih =>
    have told : (m.text (.str row.1)).exec w = (.ok row.1, w) :=
      exec_text m (C := fun _ => False) (fun _ h => h.elim) trivial
    rw [List.map_cons, List.mapM_cons, Run.exec_bind, Run.exec_bind, told]
    dsimp only
    rw [Run.exec_pure]
    dsimp only
    rw [Run.exec_bind, ih]
    rfl

theorem exec_callArguments (m : Machine) (hx : w.cells[j]? = some (.ofRows named))
    (hn : (Table.keys named).Nodup) :
    (m.callArguments (cellValue j)).exec w = (.ok named, w) := by
  have counts : (m.truthy (cellValue j)).exec w = (.ok !named.isEmpty, w) := by
    unfold truthy
    rw [Run.exec_bind, Run.exec_world]
    dsimp only
    rw [World.special?_cell, World.special?_cell]
    show Run.exec (pure (w.followed (cellValue j)).truthy) w = _
    rw [World.followed_cell hx]
    cases named <;> rfl
  unfold callArguments
  rw [Run.exec_bind, counts]
  cases named with
  | nil => rfl
  | cons row rows =>
    have held : (m.rowsOf (cellValue j)).exec w =
        (.ok ((row :: rows).map fun row => (.str row.1, row.2)), w) := by
      unfold rowsOf
      rw [Run.exec_bind, exec_lookCell hx]
      rfl
    show Run.exec (do
      let rows ← m.rowsOf (cellValue j)
      return Table.ofRows (← rows.mapM fun row => do return (← m.text row.1, row.2))) w = _
    rw [Run.exec_bind, held]
    dsimp only
    rw [Run.exec_bind, exec_textRows]
    dsimp only
    rw [Table.ofRows_of_nodup hn]
    rfl

end Machine

/-! ## Calls by a mapping -/

namespace World

structure ExecutesFor (w : World) (n d : Nat) : Prop where
  rooted : w.Rooted (.made n)
  execute : ∃ k, w.find? (.made n) "execute" = some (.made k, .ofObject (.runs (objectValue d)))
  reads : ∀ k a, w.find? (.made n) "__getattribute__" ≠ some (.made k, a)

structure TakesMappings (w : World) (n d : Nat) : Prop extends w.ExecutesFor n d where
  call : ∃ k, w.find? (.made n) "call" = some (.made k, .ofObject (.bundled (.host .callFunction)))
  toolName : ∃ k, w.find? (.made n) "tool_name" =
    some (.made k, .ofClass (.bundled (.host .functionName)))

variable {w v : World} {n d o j : Nat} {c : ClassRef} {title : Value} {named : Named} {C : Nat → Prop}

theorem LeadsTo.takesMappings (hl : w.LeadsTo v) (h : w.TakesMappings n d) :
    v.TakesMappings n d where
  rooted := hl.rooted h.rooted
  call := by
    rw [hl.find? h.rooted (by decide)]
    exact h.call
  toolName := by
    rw [hl.find? h.rooted (by decide)]
    exact h.toolName
  execute := by
    rw [hl.find? h.rooted (by decide)]
    exact h.execute
  reads k a := by
    rw [hl.find? h.rooted (by decide)]
    exact h.reads k a

/-- An object of a class that has nothing of its own under the names that a call goes through. -/
structure CalledAsMade (w : World) (o n : Nat) : Prop where
  classOf : w.classOf (objectValue o) = .made n
  unset : ∀ name ∈ ["call", "tool_name", "execute"], w.setAttribute? (objectValue o) name = none

theorem CalledAsMade.exec_reach (ho : w.CalledAsMade o n) (m : Machine) {name : String}
    (hname : name ∈ ["call", "tool_name", "execute"]) {k : Nat} {a : Attribute}
    (hf : w.find? (.made n) name = some (.made k, a)) (ha : Machine.IsMethod a)
    (hp : ∀ k x, w.find? (.made n) "__getattribute__" ≠ some (.made k, x)) :
    (m.reach (objectValue o) name).exec w =
      (.ok (w.reached (.made k) (.made n) (some (objectValue o)) a), w) :=
  Machine.exec_reachHeld m ho.classOf (ho.unset name hname) hf ha hp

structure NamedBy (w : World) (n : Nat) (title : Value) (C : Nat → Prop) : Prop where
  own : Describes (w.own? (.made n) "_name") title
  data : w.HoldsData C
  within : title.Within (w.data C)

theorem TakesMappings.exec_sendName (h : w.TakesMappings n d) (ho : w.CalledAsMade o n)
    (hn : w.NamedBy n title C) (k : Nat) :
    ((Machine.nested (k + 1)).send (objectValue o) "tool_name" [] []).exec w =
      (.ok (w.titleOf (w.className (.made n)) title), w) := by
  obtain ⟨holder, hf⟩ := h.toolName
  unfold Machine.send
  rw [Run.exec_bind, ho.exec_reach _ (by simp) hf (.ofClass _) h.reads]
  exact Machine.exec_toolNameOf (Machine.nested k) hn.data hn.own hn.within

theorem exec_executeOn {s : Stored} (hs : w.Shows d "execute_block" s.value)
    (hr : w.RunsOn s.handle s.block) (k : Nat) (self : Value) (named : Named) :
    ((Machine.nested (k + 2)).executeOn d self named).exec w =
      ((Machine.nested k).callBlock s.block self [] named).exec w := by
  unfold Machine.executeOn
  rw [Run.exec_bind, show (objectValue d) = .opaqueRef (.object d) from rfl,
    Machine.exec_storedBlock _ hs]
  exact Machine.exec_runStored k hr self [] named

theorem ExecutesFor.exec_sendStored (h : w.ExecutesFor n d) (ho : w.CalledAsMade o n) (k : Nat)
    (named : Named) :
    ((Machine.nested (k + 1)).send (objectValue o) "execute" [] named).exec w =
      ((Machine.nested k).executeOn d (objectValue o) named).exec w := by
  obtain ⟨holder, hf⟩ := h.execute
  unfold Machine.send
  rw [Run.exec_bind, ho.exec_reach _ (by simp) hf (.ofObject _) h.reads]
  rfl

theorem TakesMappings.exec_sendMapping (h : w.TakesMappings n d) (ho : w.CalledAsMade o n)
    (ht : w.NamedBy n title C) (hx : w.cells[j]? = some (.ofRows named))
    (hn : (Table.keys named).Nodup) (k : Nat) {log : List Record}
    (hnote : ((Machine.nested (k + 1)).noteCall (w.titleOf (w.className (.made n)) title)
      " called with: " (.ofRows named)).exec w = (.ok (), { w with log })) :
    ((Machine.nested (k + 2)).send (objectValue o) "call" [cellValue j] []).exec w =
      Run.exec (do
        let result ← (Machine.nested k).executeOn d (objectValue o) named
        (Machine.nested (k + 1)).closeCall (objectValue o) result) { w with log } := by
  obtain ⟨holder, hf⟩ := h.call
  unfold Machine.send
  rw [Run.exec_bind, ho.exec_reach _ (by simp) hf (.ofObject _) h.reads]
  show ((Machine.nested (k + 1)).callFunction (objectValue o) (cellValue j)).exec w = _
  have called : (Machine.nested (k + 1)).callFunction (objectValue o) (cellValue j) = (do
      let named ← (Machine.nested (k + 1)).callArguments (cellValue j)
      let name ← (Machine.nested (k + 1)).send (objectValue o) "tool_name" [] []
      (Machine.nested (k + 1)).noteCall name " called with: " (.ofRows named)
      let result ← (Machine.nested (k + 1)).send (objectValue o) "execute" [] named
      (Machine.nested (k + 1)).closeCall (objectValue o) result) := by
    unfold Machine.callFunction Machine.closeCall
    rfl
  rw [called, Run.exec_bind, Machine.exec_callArguments _ hx hn]
  dsimp only
  rw [Run.exec_bind, h.exec_sendName ho ht k]
  dsimp only
  rw [Run.exec_bind, hnote]
  dsimp only
  have hl : w.LeadsTo { w with log } := .later .refl ((World.Later.refl w fun _ => False).log log)
  rw [Run.exec_bind, (hl.takesMappings h).exec_sendStored (w := { w with log }) (o := o)
    ⟨ho.classOf, ho.unset⟩ k named, Run.exec_bind]

theorem TakesMappings.exec_sendCall (h : w.TakesMappings n d) (ho : w.CalledAsMade o n)
    (ht : w.NamedBy n title C) {s : Stored} (hs : w.Shows d "execute_block" s.value)
    (hr : w.RunsOn s.handle s.block) (hx : w.cells[j]? = some (.ofRows named))
    (hn : (Table.keys named).Nodup) (k : Nat) {log : List Record}
    (hnote : ((Machine.nested (k + 3)).noteCall (w.titleOf (w.className (.made n)) title)
      " called with: " (.ofRows named)).exec w = (.ok (), { w with log })) :
    ((Machine.nested (k + 4)).send (objectValue o) "call" [cellValue j] []).exec w =
      Run.exec (do
        let result ← (Machine.nested k).callBlock s.block (objectValue o) [] named
        (Machine.nested (k + 3)).closeCall (objectValue o) result) { w with log } := by
  rw [h.exec_sendMapping ho ht hx hn (k + 2) hnote, Run.exec_bind,
    exec_executeOn (w := { w with log }) ⟨hs.shown, hs.plain⟩ hr, Run.exec_bind]

/-- A call of an object by a mapping runs a block on the object, with what the mapping holds under
each name: once the arguments are noted, if they are, and before the result is. -/
def DeliversMappings (w : World) (n : Nat) (b : Block) : Prop :=
  ∀ (o j : Nat) (named : Named) (title : Value) (C : Nat → Prop) (k : Nat) (log : List Record),
    w.CalledAsMade o n → w.NamedBy n title C →
    w.cells[j]? = some (.ofRows named) → (Table.keys named).Nodup →
    ((Machine.nested (k + 3)).noteCall (w.titleOf (w.className (.made n)) title)
      " called with: " (.ofRows named)).exec w = (.ok (), { w with log }) →
    ((Machine.nested (k + 4)).send (objectValue o) "call" [cellValue j] []).exec w =
      Run.exec (do
        let result ← (Machine.nested k).callBlock b (objectValue o) [] named
        (Machine.nested (k + 3)).closeCall (objectValue o) result) { w with log }

/-- A call of a class of a serving host calls a stored function on a new helper object, with all
arguments under their names but the server context. -/
def DeliversArguments (w : World) (c : ClassRef) (helperClass : Nat) (indent : Value) (s : Stored) :
    Prop :=
  ∀ (named : Named) (k : Nat), ∃ log,
    ((Machine.nested (k + 1)).send (classValue c) "call" [] named).exec w =
      Run.exec (do
        let helper ← (Machine.nested k).invoke (classValue (.made helperClass)) [] []
        let result ← (Machine.nested k).invoke s.value [helper] (Table.erase "server_context" named)
        (Machine.nested k).answerTo c indent result) { w with log }

theorem exec_sendServed {helperClass : Nat} {indent : Value} {text : String}
    (hf : ∃ k, w.find? c "call" =
      some (k, .ofClass (.serves (objectValue d) helperClass indent text))) (named : Named) (k : Nat) :
    ((Machine.nested (k + 1)).send (classValue c) "call" [] named).exec w =
      ((Machine.nested k).serve c (objectValue d) helperClass indent text
        (Table.erase "server_context" named)).exec w := by
  obtain ⟨holder, hf⟩ := hf
  unfold Machine.send
  rw [Run.exec_bind, Link.reach_class (by decide) (by decide), hf]
  rfl

theorem deliversArguments {helperClass : Nat} {indent : Value} {text : String} {s : Stored}
    (hf : ∃ k, w.find? c "call" =
      some (k, .ofClass (.serves (objectValue d) helperClass indent text)))
    (hs : w.Shows d "execute_block" s.value) : w.DeliversArguments c helperClass indent s := by
  intro named k
  let given := Table.erase "server_context" named
  obtain ⟨log, hlog⟩ := Machine.exec_note Machine.adaptersLogger 10
    ("MCP tool call: " ++ text ++ "(" ++ ", ".intercalate (Table.keys given) ++ ")") w
  refine ⟨log, ?_⟩
  rw [exec_sendServed hf]
  unfold Machine.serve
  rw [Run.exec_bind, show (objectValue d) = .opaqueRef (.object d) from rfl,
    Machine.exec_storedBlock _ hs]
  dsimp only
  rw [Run.exec_bind, hlog]
  rfl

end World

/-! ## Adapted definitions -/

namespace Machine

theorem mem_keys_declaredTable {rows : List (ParamSpec × String)} {t : ParameterTable}
    {name : String} : name ∈ Table.keys (declaredTable rows t) ↔
      name ∈ Table.keys t ∨ name ∈ rows.map (·.2) := by
  unfold declaredTable
  induction rows generalizing t with
  | nil => simp
  | cons row rows ih =>
    rw [List.foldl_cons, ih, Table.keys_insert_subset, List.map_cons, List.mem_cons, or_assoc]

end Machine

namespace Session

open Machine

variable {w : World} {d : String} {p : Draft} {D : Definition Stored} {C : Nat → Prop}
  {base base' : Option String} {b b' : ClassRef} {s : Shelf} {t : ParameterTable}

theorem length_textsOf {specs : List ParamSpec} {names : List String}
    (h : w.textsOf specs = .ok names) : specs.length = names.length := by
  induction specs generalizing names with
  | nil =>
    cases h
    rfl
  | cons spec specs ih =>
    rw [World.textsOf_cons] at h
    obtain ⟨name, -, h⟩ := of_bind_ok h
    obtain ⟨rest, hrest, h⟩ := of_bind_ok h
    cases h
    exact congrArg (· + 1) (ih hrest)

theorem MeetsFunctionHost.executesFor_toLlm (h : MeetsFunctionHost w d p D C base b s t)
    (hreads : D.helper? "__getattribute__" = none) {c : String} {a : Answer} {log : List Record}
    {v : World} (hl : perform w (.toLlm (some d) c base) = (⟨.ok a, log⟩, v)) :
    v.ExecutesFor w.classes.length p.object ∧
      v.Takes D w.classes.length (reservedNames w (World.classValue b)) := by
  obtain ⟨u, text, names, rows, hlater, hv, -, -, htool, -⟩ :=
    perform_toLlm h.toHolds h.host h.bases (a := a) (by rw [hl])
  rw [hl] at hv
  subst hv
  have htakes := htool.takes (h.unchanged hlater).declares.toDrafts
    (Machine.reserved_setNames h.host) hreads (hlater.rooted h.host.rooted) fun k a => by
      rw [hlater.find? h.host.rooted]
      exact h.reads k a
  obtain ⟨own, hcls, hown⟩ := htool.tool
  exact ⟨⟨htakes.rooted, ⟨_, hcls.find?_own hown.execute⟩, htakes.reads⟩, htakes.named _⟩

theorem MeetsFunctionHost.takes_toLlm (h : MeetsFunctionHost w d p D C base b s t)
    (hcall : ∃ k, w.find? b "call" = some (.made k, .ofObject (.bundled (.host .callFunction))))
    (hreads : D.helper? "__getattribute__" = none) {c : String} {a : Answer} {log : List Record}
    {v : World} (hl : perform w (.toLlm (some d) c base) = (⟨.ok a, log⟩, v)) :
    v.TakesMappings w.classes.length p.object := by
  refine { toExecutesFor := (h.executesFor_toLlm hreads hl).1, call := ?_, toolName := ?_ }
  all_goals
    obtain ⟨u, text, names, rows, hlater, hv, -, -, htool, -⟩ :=
      perform_toLlm h.toHolds h.host h.bases (a := a) (by rw [hl])
    rw [hl] at hv
    subst hv
  · obtain ⟨own, hcls, hown⟩ := htool.tool
    obtain ⟨k, hk⟩ := hcall
    have hfree : own "call" = none := by
      rw [hown.helpers _ (by decide) (by decide), Machine.free?_reserved
        (Machine.mem_reservedNames (by decide +kernel) (World.mem_attributeNames hk))]
      rfl
    refine ⟨k, ?_⟩
    show u.find? _ _ = _
    rw [hcls.find?_above hfree, hlater.find? h.host.rooted, hk]
  · exact htool.furnished.methods.finds _ (show ("tool_name", HostMethod.functionName) ∈
      functionMethods by decide)

/-- On both hosts an argument under the name of a declared parameter, as it is published, comes to the
block that the definition stores then, under this name and unchanged, and so do all others: through a
mapping that an object of the one class is called with, and through a call of the other one, for which
the name of the server context is no argument. -/
theorem arguments_delivered (hf : MeetsFunctionHost w d p D C base b s t)
    (hm : MeetsServingHost w d p D C base' b')
    (hcall : ∃ k, w.find? b "call" = some (.made k, .ofObject (.bundled (.host .callFunction))))
    (hreads : D.helper? "__getattribute__" = none) (c : String) :
    (∀ a log v, perform w (.toLlm (some d) c base) = (⟨.ok a, log⟩, v) →
      ∃ n title names s', Table.find? v.classIds c = some (.made n) ∧
        w.textsOf D.params = .ok names ∧ v.FunctionHost n (functionCard D title names t) s' C ∧
        (∀ name ∈ names, name ∈ Table.keys (functionCard D title names t).parameters) ∧
        ∀ u p' E C' st, v.LeadsTo u → u.Declares p' E C' → p'.object = p.object →
          E.block = some st → u.DeliversMappings n st.block) ∧
    ∀ config a log v, perform w (.toMcp (some d) c base' config) = (⟨.ok a, log⟩, v) →
      ∃ n helpers indent names schema, Table.find? v.classIds c = some (.made n) ∧
        w.textsOf D.params = .ok names ∧ w.servedSchema D.params = .ok schema ∧
        Table.keys schema.properties = names.eraseDups ∧
        ∀ u p' E C' st, v.LeadsTo u → u.Declares p' E C' → p'.object = p.object →
          E.block = some st →
          u.RunsOn st.handle st.block ∧ u.DeliversArguments (.made n) helpers indent st ∧
            ∀ name ≠ "server_context", ∀ named : Named,
              Table.find? (Table.erase "server_context" named) name = Table.find? named name := by
  refine ⟨fun a log v hl => ?_, fun config a log v hl => ?_⟩
  · have htakes := hf.takes_toLlm hcall hreads hl
    obtain ⟨_, title, names, s', rfl, -, -, hfound, -, hnames, -, hhost⟩ :=
      hf.host_toLlm (congrArg (fun r => r.1.outcome) hl)
    rw [hl] at hfound hhost
    refine ⟨_, title, names, s', hfound, hnames, hhost, fun name hn => ?_, ?_⟩
    · refine Machine.mem_keys_declaredTable.mpr (.inr ?_)
      rw [List.map_snd_zip (Nat.le_of_eq (length_textsOf hnames).symm)]
      exact hn
    · intro u p' E C' st hleads hd hp hblock o j named given C₁ k log' ho ht hx hn hnote
      have hshown := hd.shows_block
      rw [hblock, hp] at hshown
      exact (hleads.takesMappings htakes).exec_sendCall ho ht hshown (hd.block st hblock) hx hn k hnote
  · obtain ⟨u, n, text, schema, x, _, indent, _, hlater, -, hw, -, -, -, hschema, -, -, -, htool⟩ :=
      perform_toMcp hm.toHolds hm.host hm.bases (a := a) (by rw [hl])
    rw [hl] at hw
    subst hw
    obtain ⟨rows, hrows, hproperties, -⟩ := World.of_servedSchema hschema
    obtain ⟨own, q, properties, hcls, hown, -⟩ := htool.tool
    refine ⟨n + 1, n, indent, Table.keys rows, schema, (Table.find?_insert _ _ _ _).trans (if_pos rfl),
      World.textsOf_publishedRows hrows, hschema, by rw [hproperties, Table.keys_ofRows], ?_⟩
    intro v p' E C' st hleads hd hp hblock
    have hshown := hd.shows_block
    rw [hblock, hp] at hshown
    have hroot := hlater.rooted hm.host.rooted
    have hcall : ∃ k, v.find? (.made (n + 1)) "call" =
        some (k, .ofClass (.serves (objectValue p.object) n indent text)) :=
      ⟨_, (hleads.find? (hcls.rooted hroot) (by decide)).trans (hcls.find?_own hown.call)⟩
    refine ⟨hd.block st hblock, World.deliversArguments hcall hshown, fun name hne named => ?_⟩
    rw [Table.find?_erase, if_neg hne.symm]

/-- A block that gives back an argument of which the name is that of the receiver of a method. -/
def passing : Block := .mk [("self", none)] none (.var "self")

def passingTool : World :=
  (perform (declaring (.str "tool") [.param { name := .str "self" }])
    ((Builder.execute passing).step "d")).2

set_option maxRecDepth 100000 in
theorem arguments_delivered_passing : ∃ p D C a log v a' log' v' n m helpers indent s,
    MeetsFunctionHost passingTool "d" p D C none functionClassRef ⟨0, []⟩ [] ∧
    MeetsServingHost passingTool "d" p D C none servingClassRef ∧
    (∃ k, passingTool.find? functionClassRef "call" =
      some (.made k, .ofObject (.bundled (.host .callFunction)))) ∧
    D.helper? "__getattribute__" = none ∧
    perform passingTool (.toLlm (some "d") "T" none) = (⟨.ok a, log⟩, v) ∧
    Table.find? v.classIds "T" = some (.made n) ∧ v.DeliversMappings n passing ∧
    perform passingTool (.toMcp (some "d") "T" none none) = (⟨.ok a', log'⟩, v') ∧
    Table.find? v'.classIds "T" = some (.made m) ∧ v'.RunsOn s.handle passing ∧
    v'.DeliversArguments (.made m) helpers indent s := by
  have told : (perform start (.define "d" (.str "tool") none)).1.outcome.isOk = true ∧
      (perform (declaring (.str "tool") [.param { name := .str "self" }])
        ((Builder.execute passing).step "d")).1.outcome.isOk = true ∧
      (perform passingTool (.toLlm (some "d") "T" none)).1.outcome.isOk = true ∧
      (perform passingTool (.toMcp (some "d") "T" none none)).1.outcome.isOk = true := by
    decide +kernel
  obtain ⟨p₀, D₀, C₀, _, hf₀, hm₀, -, hhelp, hleads, -⟩ :=
    declaring_meets [.param { name := .str "self" }] told.1
  obtain ⟨p, D, C, -, hnext, hfur⟩ := perform_builder_ok hf₀.toHolds told.2.1
  have hf : MeetsFunctionHost passingTool "d" p D C none functionClassRef ⟨0, []⟩ [] :=
    hf₀.further hfur
  have hm : MeetsServingHost passingTool "d" p D C none servingClassRef := hm₀.further hfur
  obtain ⟨s, hs, rfl⟩ := hnext.stored
  have hreads : (D₀.store s).helper? "__getattribute__" = none :=
    Definition.helper?_none fun scope => by
      rw [hnext.helperBlock?, hhelp]
      cases scope <;> rfl
  have hcall : ∃ k, passingTool.find? functionClassRef "call" =
      some (.made k, .ofObject (.bundled (.host .callFunction))) :=
    ⟨0, ((hleads.trans hfur.leadsTo).find? functionBase_start.rooted (by decide)).trans rfl⟩
  obtain ⟨hfunction, hserving⟩ := arguments_delivered hf hm hcall hreads "T"
  obtain ⟨a, log, hl⟩ := exists_perform told.2.2.1
  obtain ⟨a', log', hl'⟩ := exists_perform told.2.2.2
  obtain ⟨n, _, _, _, hn, -, -, -, hdelivers⟩ := hfunction a log _ hl
  obtain ⟨m, helpers, indent, _, _, hm', -, -, -, hserves⟩ := hserving none a' log' _ hl'
  have declared := (hm.after_toLlm hf hl).toDeclares
  have declared' := (hm.holds_toMcp (congrArg (fun r => r.1.outcome) hl')).toDeclares
  have delivers := hdelivers _ p _ C s .refl declared rfl rfl
  have serves := hserves _ p _ C s .refl declared' rfl rfl
  rw [hs] at delivers serves
  exact ⟨p, _, C, a, log, _, a', log', _, n, m, helpers, indent, s, hf, hm, hcall, hreads, hl, hn,
    delivers, hl', hm', serves.1, serves.2.1⟩

/-- Sessions in which an argument does not come to the block: under the name of the server context on
a serving host; where a helper replaces how objects are asked; where the block has replaced itself on
the object; and where the class above has something else than the method that takes mappings. -/
def undelivered : List (List Step) :=
  [[.define "d" (.str "tool") none, .param (some "d") { name := .str "server_context" },
      .execute (some "d") (.mk [("server_context", some (.str "none"))] none (.var "server_context")),
      .toLlm (some "d") "L" none, .toMcp (some "d") "M" none none, .new "i" "L",
      .callObject "i" "call" [.dict [(.str "server_context", .str "given")]] [],
      .callClass "M" "call" [] [("server_context", .str "given")]],
    [.define "d" (.str "tool") none, .param (some "d") { name := .str "x" },
      .help (some "d") .ofInstance "__getattribute__" (.mk [("name", none)] none (.lit .null)),
      .execute (some "d") (.mk [("x", none)] none (.var "x")), .toLlm (some "d") "L" none,
      .new "i" "L", .callObject "i" "call" [.dict [(.str "x", .str "given")]] []],
    [.define "d" (.str "tool") none, .param (some "d") { name := .str "x" },
      .execute (some "d") (.mk [("x", none)] none
        (.seq [.setAttr "execute" (.lit .null), .var "x"])), .toLlm (some "d") "L" none,
      .new "i" "L", .callObject "i" "call" [.dict [(.str "x", .str "given")]] [],
      .callObject "i" "call" [.dict [(.str "x", .str "given")]] []],
    [.subclass "B" (some "LLMTool") "B" [("call", .int 5)] none none,
      .define "d" (.str "tool") none, .param (some "d") { name := .str "x" },
      .execute (some "d") (.mk [("x", none)] none (.var "x")), .toLlm (some "d") "L" (some "B"),
      .new "i" "L", .callObject "i" "call" [.dict [(.str "x", .str "given")]] []]]

def textTold (reply : Reply) : Option String :=
  match reply.outcome with
  | .ok (.str text) => some text
  | _ => answerText reply

set_option maxRecDepth 100000 in
/-- A serving host keeps one name for itself, and an object on which calls go another way gives its
block no arguments. -/
theorem undelivered_told :
    undelivered.map (fun steps => (replies 30 steps).filterMap textTold) =
      [["tool", "given", "none"], ["tool"], ["tool", "given"], ["tool"]] := by
  decide +kernel

end Session

end Toolwright
