import Toolwright.Proofs.Adaptation.Course

/-!
# Helpers that resolve

A helper of instances is called through an object of the class that took it over, with that object as
its context; a helper of the class is called through the class, without a context. A helper of the
class hides one of instances that has its name.
-/

namespace Toolwright

set_option autoImplicit false

/-- The names with a meaning of their own: what is computed for objects and for classes, and what is
changed or added when a class is made. -/
def meantNames : List String :=
  Kind.object.fields ++ Kind.type.fields ++ ClassPlan.standing ++
    ["__new__", "__init_subclass__", "__class_getitem__"]

def Common (name : String) : Prop := name ∉ meantNames

theorem common_of_startsWith {name : String} (h : name.startsWith "__" = false) : Common name := by
  have all : ∀ key ∈ meantNames, key.startsWith "__" = true := by decide +kernel
  intro hm
  rw [all name hm] at h
  cases h

namespace Common

variable {name : String}

theorem notField (h : Common name) {k : Kind} (hk : k ∈ [.object, .type]) :
    k.fields.contains name = false := by
  rw [Bool.eq_false_iff]
  intro hc
  refine h ?_
  simp only [List.mem_cons, List.not_mem_nil, or_false] at hk
  simp only [meantNames, List.mem_append]
  rcases hk with rfl | rfl
  · exact .inl (.inl (.inl (List.contains_iff_mem.mp hc)))
  · exact .inl (.inl (.inr (List.contains_iff_mem.mp hc)))

theorem ne_computed (h : Common name) {w : World} {c : ClassRef} {a : Attribute}
    (hf : w.find? (.builtIn .type) name = some (c, a)) :
    (∀ k of, a ≠ .field k of) ∧ ∀ of, a ≠ .view of := by
  rw [World.find?_builtIn] at hf
  obtain ⟨k, hk, ha⟩ := List.exists_of_findSome?_eq_some hf
  have hfield := h.notField (k := k) (by
    revert hk
    simp only [Kind.above, List.mem_cons, List.not_mem_nil, or_false]
    exact Or.symm)
  obtain ⟨a', ha', he⟩ := Option.map_eq_some_iff.mp ha
  cases he
  unfold Kind.attribute? at ha'
  simp only [hfield, Bool.false_eq_true, if_false] at ha'
  grind

theorem notStanding (h : Common name) : name ∉ ClassPlan.standing := fun hm =>
  h (List.mem_append_left _ (List.mem_append_right _ hm))

theorem settle_eq (h : Common name) (a : Attribute) : (ClassPlan.settle (name, a)).2 = a :=
  ClassPlan.settle_eq (fun hm => h (List.mem_append_right _ hm)) a

end Common

namespace Machine

variable {w : World} {n o : Nat} {name : String} {s : Stored}

theorem exec_runStored (k : Nat) (hs : w.RunsOn s.handle s.block) (self : Value) (args : List Value)
    (named : Named) : ((nested (k + 2)).invoke s.value (self :: args) named).exec w =
      ((nested k).callBlock s.block self args named).exec w := by
  show ((nested (k + 1)).invokeWith (routineValue s.handle) (self :: args) named).exec w = _
  unfold invokeWith routineValue
  dsimp only
  rw [Run.exec_bind, Run.exec_world]
  dsimp only
  rw [hs]
  rfl

theorem exec_runStoredAlone (k : Nat) (hs : w.RunsAlone s.handle s.block) (args : List Value)
    (named : Named) : ((nested (k + 2)).invoke s.value args named).exec w =
      ((nested k).callBlock s.block .null args named).exec w := by
  show ((nested (k + 1)).invokeWith (routineValue s.handle) args named).exec w = _
  unfold invokeWith routineValue
  dsimp only
  rw [Run.exec_bind, Run.exec_world]
  dsimp only
  rw [hs]
  rfl

theorem exec_reachOwn (m : Machine) {holder : Nat} {f : Function}
    (hc : w.classOf (objectValue o) = .made n)
    (hset : w.setAttribute? (objectValue o) name = none)
    (hf : w.find? (.made n) name = some (.made holder, .ofObject f))
    (hp : ∀ k a, w.find? (.made n) "__getattribute__" ≠ some (.made k, a)) :
    (m.reach (objectValue o) name).exec w = (.ok (.function f (some (objectValue o))), w) :=
  exec_reachHeld m hc hset hf (.ofObject f) hp

theorem exec_sendHelper (k : Nat) (hc : w.classOf (objectValue o) = .made n)
    (hset : w.setAttribute? (objectValue o) name = none)
    (hf : ∃ holder, w.find? (.made n) name =
      some (.made holder, .ofObject (.forwards s.value)))
    (hp : ∀ k a, w.find? (.made n) "__getattribute__" ≠ some (.made k, a))
    (hs : w.RunsOn s.handle s.block) (args : List Value) (named : Named) :
    ((nested (k + 3)).send (objectValue o) name args named).exec w =
      ((nested k).callBlock s.block (objectValue o) args named).exec w := by
  obtain ⟨holder, hf⟩ := hf
  unfold send
  rw [Run.exec_bind, exec_reachOwn _ hc hset hf hp]
  exact exec_runStored k hs (objectValue o) args named

theorem exec_reachFixed (m : Machine) {c : ClassRef} {x : Value} (hn : Common name)
    (hf : ∃ k, w.find? c name = some (k, .fixed x)) :
    (m.reach (World.classValue c) name).exec w = (.ok (.value x), w) := by
  obtain ⟨k, hf⟩ := hf
  have hs (name : String) : w.special? (World.classValue c) name = none :=
    World.special?_builtIn (k := .type) rfl name
  have accessed : (plainAccess (World.classValue c) name).exec w = (.ok (some (.value x)), w) := by
    unfold plainAccess
    rw [Run.exec_bind, Run.exec_world]
    dsimp only
    rw [show w.classOf (World.classValue c) = .builtIn .type from rfl]
    cases ht : w.find? (.builtIn .type) name with
    | none =>
      simp only [World.classValue]
      rw [hf]
      rfl
    | some found =>
      obtain ⟨c', a⟩ := found
      obtain ⟨hfield, hview⟩ := hn.ne_computed ht
      simp only [World.classValue]
      cases a with
      | field k of => exact absurd rfl (hfield k of)
      | view of => exact absurd rfl (hview of)
      | _ =>
        dsimp only
        rw [hf]
        rfl
  unfold reach
  rw [Run.exec_bind, Run.exec_world]
  simp only [hs]
  unfold plainReach
  rw [Run.exec_bind, accessed]
  rfl

theorem exec_sendClassHelper (k : Nat) {c : ClassRef} (hn : Common name)
    (hf : ∃ k, w.find? c name = some (k, .fixed s.value)) (hs : w.RunsAlone s.handle s.block)
    (args : List Value) (named : Named) :
    ((nested (k + 3)).send (World.classValue c) name args named).exec w =
      ((nested (k + 1)).callBlock s.block .null args named).exec w := by
  unfold send
  rw [Run.exec_bind, exec_reachFixed _ hn hf]
  exact exec_runStoredAlone (k + 1) hs args named

end Machine

/-! ## Classes that took over helpers -/

def setNames : List String := ["_name", "_description", "_parameters", "definition", "execute"]

namespace World

variable {w v : World} {own : Nat → Prop} {D : Definition Stored} {n o : Nat}
  {reserved : List String}

structure Takes (w : World) (D : Definition Stored) (n : Nat) (reserved : List String) : Prop where
  rooted : w.Rooted (.made n)
  finds : ∀ name helper, Common name → reserved.contains name = false →
    D.helper? name = some helper → w.find? (.made n) name = some (.made n, helperAttribute helper)
  reads : ∀ k a, w.find? (.made n) "__getattribute__" ≠ some (.made k, a)
  instanceBodies : ∀ row ∈ D.instanceHelpers, w.RunsOn row.2.handle row.2.block
  classBodies : ∀ row ∈ D.classHelpers, w.RunsAlone row.2.handle row.2.block

theorem Later.takes (hl : w.Later v own) (h : w.Takes D n reserved) : v.Takes D n reserved where
  rooted := hl.rooted h.rooted
  finds name helper hn hr hh := (hl.find? h.rooted name).trans (h.finds name helper hn hr hh)
  reads k a := by
    rw [hl.find? h.rooted]
    exact h.reads k a
  instanceBodies row hr := hl.handle (h.instanceBodies row hr)
  classBodies row hr := hl.handle (h.classBodies row hr)

theorem Takes.named (h : w.Takes D n reserved) (names : Names) : (w.named names).Takes D n reserved :=
  ⟨h.rooted, h.finds, h.reads, h.instanceBodies, h.classBodies⟩

/-- Objects of a class run helpers with themselves as the context, and the class runs helpers without
a context. Where there is a helper of both kinds, it is the one of the class. -/
structure Resolves (w : World) (n : Nat) (reserved : List String)
    (helper? : Scope → String → Option Block) : Prop where
  ofInstance : ∀ {name : String} {b : Block}, Common name → reserved.contains name = false →
    helper? .ofInstance name = some b → helper? .ofClass name = none → ∀ {o : Nat},
    w.classOf (objectValue o) = .made n → w.setAttribute? (objectValue o) name = none →
    ∀ (k : Nat) (args : List Value) (named : Named),
      ((Machine.nested (k + 3)).send (objectValue o) name args named).exec w =
        ((Machine.nested k).callBlock b (objectValue o) args named).exec w
  ofClass : ∀ {name : String} {b : Block}, Common name → reserved.contains name = false →
    helper? .ofClass name = some b → ∀ (k : Nat) (args : List Value) (named : Named),
      ((Machine.nested (k + 3)).send (classValue (.made n)) name args named).exec w =
        ((Machine.nested (k + 1)).callBlock b .null args named).exec w

theorem Takes.resolves (h : w.Takes D n reserved) : w.Resolves n reserved D.helperBlock? where
  ofInstance {name b} hn hr hi hc {o} ho hset k args named := by
    obtain ⟨s, hs, rfl⟩ := Option.map_eq_some_iff.mp hi
    have hh : D.helper? name = some (.ofInstance, s) := by
      unfold Definition.helper?
      rw [hs, Option.map_eq_none_iff.mp hc]
      rfl
    exact Machine.exec_sendHelper k ho hset ⟨n, h.finds name _ hn hr hh⟩ h.reads
      (h.instanceBodies _ (Table.mem_of_find? hs)) args named
  ofClass {name b} hn hr hc k args named := by
    obtain ⟨s, hs, rfl⟩ := Option.map_eq_some_iff.mp hc
    have hh : D.helper? name = some (.ofClass, s) := by
      unfold Definition.helper?
      rw [hs]
      rfl
    exact Machine.exec_sendClassHelper k hn ⟨.made n, h.finds name _ hn hr hh⟩
      (h.classBodies _ (Table.mem_of_find? hs)) args named

end World

theorem Definition.helper?_none {D : Definition Stored} {name : String}
    (h : ∀ scope, D.helperBlock? scope name = none) : D.helper? name = none := by
  unfold Definition.helper?
  rw [Option.map_eq_none_iff.mp (h .ofClass), Option.map_eq_none_iff.mp (h .ofInstance)]
  rfl

namespace Machine

variable {w : World} {n : Nat} {b : ClassRef} {p : Draft} {D : Definition Stored} {C C' : Nat → Prop}
  {reserved names : List String} {text : String}

theorem not_standing {name : String} (hn : name.startsWith "__" = false) :
    name ∉ ClassPlan.standing := (common_of_startsWith hn).notStanding

variable {own : String → Option Attribute} {key : String}

theorem ToolAttributes.own_unreserved (h : ToolAttributes D p reserved text own) (hc : Common key)
    (hk : key ∉ setNames) (hr : reserved.contains key = false) :
    own key = (D.helper? key).map helperAttribute := by
  rw [h.helpers key hc.notStanding hk, show (fun a => (ClassPlan.settle (key, a)).2) = id from
    funext hc.settle_eq, Option.map_id, id]
  unfold Definition.free?
  rw [hr]
  rfl

theorem FunctionTool.takes {s : Shelf} {t : ParameterTable}
    (h : FunctionTool w n b p D reserved text names s t C) (hd : w.Drafts p D)
    (hset : ∀ key ∈ setNames, reserved.contains key = true)
    (hh : D.helper? "__getattribute__" = none) (hroot : w.Rooted b)
    (hb : ∀ k a, w.find? b "__getattribute__" ≠ some (.made k, a)) : w.Takes D n reserved := by
  obtain ⟨own, hcls, ha⟩ := h.tool
  refine ⟨hcls.rooted hroot, fun name helper hn hr hhelper => ?_, fun k a => ?_, hd.instanceBodies,
    hd.classBodies⟩
  · refine hcls.find?_own ?_
    rw [ha.helpers name hn.notStanding fun hm => by rw [hset name hm] at hr; cases hr]
    unfold Definition.free?
    rw [hr, hhelper]
    exact congrArg some (hn.settle_eq _)
  · have hnone : own "__getattribute__" = none := by
      rw [ha.helpers _ (by decide) (by decide)]
      unfold Definition.free?
      rw [hh]
      split <;> rfl
    rw [hcls.find?_above hnone]
    exact hb k a

theorem ServedTool.takes {indent : Value} {s : InputSchema}
    (h : ServedTool w n b p D indent text s C) (hd : w.Drafts p D)
    (hh : D.helper? "__getattribute__" = none) : w.Takes D n [] := by
  obtain ⟨own, hcls, ha⟩ := h.helpers
  have hroot : w.Rooted (.builtIn .object) := by
    intro n hn
    simp [World.lineage, World.above] at hn
  refine ⟨hcls.rooted hroot, fun name helper hn _ hhelper => ?_, fun k a => ?_, hd.instanceBodies,
    hd.classBodies⟩
  · refine hcls.find?_own ?_
    rw [ha.helpers name hn.notStanding, hhelper]
    exact congrArg some (hn.settle_eq _)
  · have hnone : own "__getattribute__" = none := by
      rw [ha.helpers _ (by decide), hh]
      rfl
    rw [hcls.find?_above hnone]
    exact World.find?_builtIn_ne_made w .object _ k a

theorem reserved_setNames {s : Shelf} {t : ParameterTable} (h : w.FunctionBase b s t C) :
    ∀ key ∈ setNames, (reservedNames w (World.classValue b)).contains key = true := by
  intro key hk
  simp only [setNames, List.mem_cons, List.not_mem_nil, or_false] at hk
  rcases hk with rfl | rfl | rfl | rfl | rfl
  all_goals first
    | exact mem_reservedNames (by decide +kernel) (h.fields _ (by decide))
    | exact List.contains_iff_mem.mpr (List.mem_append_right _ (by decide))

end Machine

namespace Session

variable {w : World} {d : String} {p : Draft} {D : Definition Stored} {C : Nat → Prop}
  {base base' : Option String} {b b' : ClassRef} {s : Shelf} {t : ParameterTable}

/-- The helper of a scope under a name that a definition has after more declarations. -/
def helperAfter (D : Definition Stored) (ops : List Builder) (scope : Scope) (name : String) :
    Option Block :=
  (lastHelper ops scope name).or (D.helperBlock? scope name)

/-- On both hosts a helper of instances that was registered last runs with the context, and a helper
of the class without one, if the host does not reserve the name. A helper of the class hides one of
instances that has its name. -/
theorem helpers_resolve (hf : MeetsFunctionHost w d p D C base b s t)
    (hm : MeetsServingHost w d p D C base' b') (ops : List Builder)
    (hops : ∀ scope, helperAfter D ops scope "__getattribute__" = none) (c : String) :
    ∃ v, (performAll w (ops.map (Builder.step d))).2 = v ∧
      (∀ a log v', perform v (.toLlm (some d) c base) = (⟨.ok a, log⟩, v') →
        ∃ n, Table.find? v'.classIds c = some (.made n) ∧
          ∀ u own ids, v'.Later u own →
            (u.named ids).Resolves n (Machine.reservedNames w (World.classValue b))
              (helperAfter D ops)) ∧
      ∀ config a log v', perform v (.toMcp (some d) c base' config) = (⟨.ok a, log⟩, v') →
        ∃ m n x indent text, Table.find? v'.classIds c = some (.made m) ∧
          ∀ u own ids, v'.Later u own →
            (u.named ids).own? (.made m) "call" = some (.ofClass (.serves x n indent text)) ∧
            (u.named ids).Resolves n [] (helperAfter D ops) := by
  obtain ⟨p', D', C', hh, -, hhelp, hfur⟩ := performAll_helpers hf.toHolds ops
  refine ⟨_, rfl, ?_⟩
  generalize (performAll w (ops.map (Builder.step d))).2 = v at hh hfur
  have hnone : D'.helper? "__getattribute__" = none :=
    Definition.helper?_none fun scope => (hhelp scope _).trans (hops scope)
  have hsame : D'.helperBlock? = helperAfter D ops :=
    funext fun scope => funext fun name => hhelp scope name
  have hf' := hf.further hfur
  have hm' := hm.further hfur
  rw [← hsame, ← Machine.reservedNames_later hfur.later hf.host.rooted]
  refine ⟨fun a log v' hp => ?_, fun config a log v' hp => ?_⟩
  · obtain ⟨u, text, names, rows, hlater, hw, -, -, htool, -⟩ :=
      perform_toLlm hf'.toHolds hf'.host hf'.bases (a := a) (by rw [hp])
    rw [hp] at hw
    subst hw
    have hroot := hfur.later.rooted hf.host.rooted
    have htakes := htool.takes (hf'.unchanged hlater).declares.toDrafts
      (Machine.reserved_setNames hf'.host) hnone (hlater.rooted hroot) fun k a => by
        rw [hlater.find? hroot]
        exact hf'.reads k a
    exact ⟨_, (Table.find?_insert _ _ _ _).trans (if_pos rfl),
      fun u own ids hu => ((hu.takes (htakes.named _)).named ids).resolves⟩
  · obtain ⟨u, n, text, _, x, _, indent, _, hlater, -, hw, -, -, -, -, -, -, -, htool⟩ :=
      perform_toMcp hm'.toHolds hm'.host hm'.bases (a := a) (by rw [hp])
    rw [hp] at hw
    subst hw
    have htakes := htool.takes (hm'.unchanged hlater).declares.toDrafts hnone
    obtain ⟨own, q, properties, hcls, hown, -⟩ := htool.tool
    refine ⟨n + 1, n, p'.value, indent, text, (Table.find?_insert _ _ _ _).trans (if_pos rfl),
      fun v own' ids hv => ⟨?_, ((hv.takes (htakes.named _)).named ids).resolves⟩⟩
    have hroot := hlater.rooted hm'.host.rooted
    rw [((hv.classAt (hcls.named _) hroot).named ids).own?]
    exact hown.call

/-- A helper of instances that is registered twice, and one of the class. -/
def greeting : List Builder :=
  [.help .ofInstance "greet" (.mk [] none (.lit .null)),
    .help .ofClass "shout" (.mk [("text", none)] none (.cat [.var "text", .lit (.str "!")])),
    .help .ofInstance "greet" (.mk [] none (.classHelper "shout" [.lit (.str "hello")] []))]

set_option maxRecDepth 100000 in
theorem helpers_resolve_greeting : ∃ w p D C,
    MeetsFunctionHost w "d" p D C none functionClassRef ⟨0, []⟩ [] ∧
    MeetsServingHost w "d" p D C none servingClassRef ∧
    (∀ scope, helperAfter D greeting scope "__getattribute__" = none) ∧
    ∃ a log v n, perform (performAll w (greeting.map (Builder.step "d"))).2
        (.toLlm (some "d") "L" none) = (⟨.ok a, log⟩, v) ∧
      Table.find? v.classIds "L" = some (.made n) ∧
      ∀ o, v.classOf (objectValue o) = .made n →
        v.setAttribute? (objectValue o) "greet" = none → ∀ k,
        ((Machine.nested (k + 3)).send (objectValue o) "greet" [] []).exec v =
          ((Machine.nested k).callBlock
            (.mk [] none (.classHelper "shout" [.lit (.str "hello")] [])) (objectValue o) [] []).exec
              v := by
  have told : (perform start (.define "d" (.str "tool") none)).1.outcome.isOk = true ∧
      (perform (performAll (perform start (.define "d" (.str "tool") none)).2
        (greeting.map (Builder.step "d"))).2 (.toLlm (some "d") "L" none)).1.outcome.isOk = true := by
    decide +kernel
  cases ha : (perform start (.define "d" (.str "tool") none)).1.outcome with
  | error f =>
    rw [ha] at told
    cases told.1
  | ok a =>
    obtain ⟨p, x, C, hf, hm⟩ := perform_define_meets bundled_start holdsData_start
      functionBase_start reads_start (show Bases start llmHost none functionClassRef from rfl)
      servingBase_start (show Bases start mcpHost none servingClassRef from rfl) "d" (.str "tool") ha
    have hops : ∀ scope, helperAfter ({ name := x } : Definition Stored) greeting scope
        "__getattribute__" = none := by
      rintro (_ | _) <;> rfl
    refine ⟨_, p, _, C, hf, hm, hops, ?_⟩
    obtain ⟨v, rfl, hllm, -⟩ := helpers_resolve hf hm greeting hops "L"
    cases hl : perform (performAll (perform start (.define "d" (.str "tool") none)).2
        (greeting.map (Builder.step "d"))).2 (.toLlm (some "d") "L" none) with
    | mk reply v =>
      obtain ⟨outcome, log⟩ := reply
      rw [hl] at told
      cases outcome with
      | error f => cases told.2
      | ok answer =>
        obtain ⟨n, hn, hresolves⟩ := hllm answer log v hl
        have resolves := hresolves v (fun _ => False) v.names (World.Later.refl v _)
        exact ⟨answer, log, v, n, rfl, hn, fun o ho hset k =>
          resolves.ofInstance (show Common "greet" from common_of_startsWith (by decide +kernel))
            (by decide +kernel) rfl rfl ho hset k [] []⟩

/-- A session in which a helper of each kind is registered under one name, and both are called. -/
def oneName : List Step :=
  [.define "d" (.str "tool") none,
    .help (some "d") .ofInstance "x" (.mk [] none (.lit (.str "with context"))),
    .help (some "d") .ofClass "x" (.mk [] none (.lit (.str "without"))),
    .execute (some "d") (.mk [] none (.list [.helper "x" [] [], .classHelper "x" [] []])),
    .toLlm (some "d") "L" none, .new "i" "L", .callObject "i" "execute" [] []]

def textsTold (reply : Reply) : List String :=
  match reply.outcome with
  | .ok (.list items) => items.filterMap fun
    | .str text => some text
    | _ => none
  | _ => []

set_option maxRecDepth 100000 in
/-- A helper of instances cannot be reached any more once a helper of the class has its name. -/
theorem oneName_hidden :
    (replies 30 oneName).map textsTold = [[], [], [], [], [], [], ["without", "without"]] := by
  decide +kernel

end Session

end Toolwright
