import Toolwright.Proofs.Isolation.Helperless
import Toolwright.Proofs.Isolation.Interleaving
import Toolwright.Proofs.Publication.Kept

/-!
# Sessions without helpers

A class that a definition became is asked what was declared on it, and objects of it are made, execute
and take mappings of arguments. Step by step the same comes of it in a session from which the helpers of
the class were stripped.
-/

namespace Toolwright

set_option autoImplicit false

namespace World

/-! ## What a class publishes -/

/-- The names under which a class of a function-calling host is asked, and holds what was declared. -/
def functionNames : List String :=
  Table.keys functionMethods ++ ["_name", "_description", "_parameters"]

/-- A class of a function-calling host, the helpers of which are at sites that a world can be stripped
of: none of them has a name that the host uses itself, and nothing that is published is there. -/
structure Publishes (w : World) (s : HelperSites) (card : FunctionCard) (places : Shelf)
    (C : Nat → Prop) : Prop extends w.FunctionHost s.cls card places C where
  bundled : w.Bundled
  holds : w.HoldsData C
  sites : w.HasSites s
  bundledBelow : 9 ≤ s.cls
  apart : ∀ n, C n → s.Spares n
  spared : ∀ n ∈ places.cells, s.Spares n
  free : ∀ name ∈ functionNames, name ∉ s.names

variable {b u w : World} {s : HelperSites} {card : FunctionCard} {places : Shelf} {C E : Nat → Prop}
  {e : Stage} {log : List Record}

theorem Publishes.later {own : Nat → Prop} (h : b.Publishes s card places C) (hl : b.Later u own)
    (hC : ∀ n, C n → ¬ own n) (ho : ∀ n ∈ places.cells, ¬ own n) : u.Publishes s card places C where
  toFunctionHost := by
    have hkeeps : b.KeepsClass u s.cls := (LeadsTo.later .refl hl).keepsClass h.methods.rooted
      fun key _ => hl.own? (by rintro n ⟨⟩; exact h.methods.rooted _ List.mem_cons_self) key
    exact h.toFunctionHost.kept hkeeps (hl.retains h.holds hC) hl.objects fun k hk x hx =>
      hl.cells k x (ho k hk) hx
  bundled := hl.bundled h.bundled
  holds := (hl.retains h.holds hC).holdsData h.holds
  sites := h.sites.mono hl.cells_le
  bundledBelow := h.bundledBelow
  apart := h.apart
  spared := h.spared
  free := h.free

theorem Publishes.retains (h : w.Publishes s card places C) (log : List Record) :
    w.Retains (w.stripped s log) C :=
  retains_stripped h.apart

theorem Publishes.stripped (h : w.Publishes s card places C) (log : List Record) :
    (w.stripped s log).FunctionHost s.cls card places C where
  tellsName := by
    rw [find?_stripped fun _ => h.free _ (by simp [functionNames, functionMethods, Table.keys])]
    exact h.tellsName
  tellsDescription := by
    rw [find?_stripped fun _ => h.free _ (by simp [functionNames, functionMethods, Table.keys])]
    exact h.tellsDescription
  ownName := by
    rw [own?_stripped, if_neg fun hn => h.free _ (by simp [functionNames]) hn.2]
    exact h.ownName
  ownDescription := by
    rw [own?_stripped, if_neg fun hn => h.free _ (by simp [functionNames]) hn.2]
    exact h.ownDescription
  data := h.data
  methods :=
    { rooted := fun n hn => by
        rw [lineage_stripped] at hn
        obtain ⟨cls, hcls⟩ := h.methods.rooted n hn
        rw [hostClass_stripped, hcls]
        exact ⟨_, rfl⟩
      finds := fun row hr => by
        rw [find?_stripped fun _ => h.free _ (List.mem_append_left _ (List.mem_map_of_mem hr))]
        exact h.methods.finds row hr }
  parameters := by
    rw [find?_stripped fun _ => h.free _ (by simp [functionNames])]
    exact h.parameters
  shelf := h.shelf.kept (h.retains log) (List.prefix_refl _) fun k hk x hx =>
    (cells_stripped (h.spared k hk)).trans hx

theorem Unaided.keeps (hs : b.HasSites s) (x : Value) :
    b.Unaided s e (fun _ y => ∃ k, y = cellValue k) (Run.kept x) := by
  intro u E log hu _
  have made : (u.stripped s log).withCell x = (u.withCell x).stripped s log :=
    withCell_stripped (hs.mono hu.later.cells_le) x
  refine ⟨.ok (cellValue u.cells.length), u.withCell x, E, log, rfl, ?_, ?_, ⟨?_, Nat.le_refl _⟩, ?_⟩
  · show (Except.ok (cellValue (u.stripped s log).cells.length), (u.stripped s log).withCell x) = _
    rw [made, length_cells_stripped]
  · exact
      { later := hu.later.newCell x
        data := fun k hk => by
          obtain ⟨y, hy, hw⟩ := hu.data k hk
          exact ⟨y, getElem?_of_extended (List.prefix_append _ _) hy, hw⟩
        fresh := hu.fresh
        objects := hu.objects }
  · exact .refl _
  · rintro _ ⟨⟩
    exact ⟨_, rfl⟩

section Shared

variable {d : Extent}

mutual

theorem Unaided.share (hs : b.HasSites s) (hd : ∀ k, d.cell k) {e : Stage} {x : Value}
    (hx : x.Within d) : b.Unaided s e (fun _ y => y.Within d) (Run.share x) := by
  have shared {r : Run Value} (hr : b.Unaided s e (fun _ y => ∃ k, y = cellValue k) r) :
      b.Unaided s e (fun _ y => y.Within d) r :=
    hr.mono fun _ _ _ ⟨k, hk⟩ => hk ▸ hd k
  cases x with
  | list xs | set xs => exact shared ((Unaided.shareItems hs hd hx).bind fun _ _ _ _ => .keeps hs _)
  | dict rows => exact shared ((Unaided.shareRows hs hd hx).bind fun _ _ _ _ => .keeps hs _)
  | tuple xs => exact (Unaided.shareItems hs hd hx).bind fun _ _ _ h => .returns fun _ _ => h
  | mapping rows => exact (Unaided.shareRows hs hd hx).bind fun _ _ _ h => .returns fun _ _ => h
  | record => exact hx.elim
  | _ => exact .returns fun _ _ => hx

theorem Unaided.shareItems (hs : b.HasSites s) (hd : ∀ k, d.cell k) {e : Stage} {xs : List Value}
    (hx : Value.WithinItems d xs) :
    b.Unaided s e (fun _ ys => Value.WithinItems d ys) (Run.shareItems xs) := by
  cases xs with
  | nil => exact .returns fun _ _ => trivial
  | cons x xs =>
    refine (Unaided.share hs hd hx.1).bind fun _ _ _ h => ?_
    exact (Unaided.shareItems hs hd hx.2).bind fun _ _ _ h' => .returns fun _ _ => ⟨h, h'⟩

theorem Unaided.shareRows (hs : b.HasSites s) (hd : ∀ k, d.cell k) {e : Stage}
    {rows : List (Value × Value)} (hx : Value.WithinRows d rows) :
    b.Unaided s e (fun _ ys => Value.WithinRows d ys) (Run.shareRows rows) := by
  cases rows with
  | nil => exact .returns fun _ _ => trivial
  | cons row rows =>
    obtain ⟨k, x⟩ := row
    refine (Unaided.share hs hd hx.1.2).bind fun _ _ _ h => ?_
    exact (Unaided.shareRows hs hd hx.2).bind fun _ _ _ h' => .returns fun _ _ => ⟨⟨hx.1.1, h⟩, h'⟩

end

end Shared

theorem Publishes.uses (h : b.Publishes s card places C) (hu : b.Uses s.cls u E) :
    u.Publishes s card places C :=
  h.later hu.later (fun _ _ => id) fun _ _ => id

theorem Unaided.sendSchema (h : b.Publishes s card places C) (k : Nat) :
    b.Unaided s e (fun _ x => ∃ d : Extent, (∀ k, d.cell k) ∧ x.Within d)
      ((Machine.nested (k + 2)).send (classValue (.made s.cls)) "to_json_schema" [] []) := by
  refine .of_exec fun u E log hu he => ?_
  have now := h.uses hu
  have hr := now.retains log
  let d : Extent := ⟨fun _ => True, fun _ => False, u.marks⟩
  have below : (u.data C).Below d := ⟨fun _ _ => trivial, fun _ => id, Nat.le_refl _⟩
  refine ⟨_, Machine.exec_sendSchema_share k now.bundled now.holds now.toFunctionHost, ?_, ?_⟩
  · rw [Machine.exec_sendSchema_share k (now.bundled.stripped h.bundledBelow) (hr.holdsData now.holds)
      (now.stripped log), className_stripped, hr.functionDocument now.holds now.isData]
  · refine Unaided.bind (Q := fun _ x => x.Within d) (.lift fun x hx _ _ => ?_) fun _ _ _ hx => ?_
    · exact (functionDocument_within now.isData hx).mono below
    · exact (Unaided.share h.sites (fun _ => trivial) hx).mono fun _ _ _ hx => ⟨d, fun _ => trivial, hx⟩

/-- A class answers when it is asked for what was declared on it, as it does without its helpers. -/
theorem Unaided.getter (h : b.Publishes s card places C) (k : Nat) (g : FunctionGetter) :
    b.Unaided s e (fun _ _ => True)
      ((Machine.nested (k + 3)).send (classValue (.made s.cls)) g.attribute [] []) := by
  refine .of_exec fun u E log hu he => ?_
  have now := h.uses hu
  have hr := now.retains log
  have without := now.stripped log
  have bundled : (u.stripped s log).Bundled := now.bundled.stripped h.bundledBelow
  have holds := hr.holdsData now.holds
  cases g with
  | title =>
    refine ⟨Pure.pure _, Machine.exec_sendName (k + 2) now.holds now.toTitled, ?_, .returns fun _ _ => trivial⟩
    have told := Machine.exec_sendName (k + 2) holds without.toTitled
    rwa [className_stripped, hr.titleOf now.holds now.data.1] at told
  | description =>
    exact ⟨Pure.pure _, Machine.exec_sendOwnDescription (k + 2) now.toTitled,
      Machine.exec_sendOwnDescription (k + 2) without.toTitled, .returns fun _ _ => trivial⟩
  | parameters =>
    refine ⟨Run.kept (.ofRows (objectRows places.rows)),
      Machine.exec_sendParameters (k + 1) now.bundled now.toFunctionHost, ?_,
      (Unaided.keeps h.sites _).mono fun _ _ _ _ => trivial⟩
    exact Machine.exec_sendParameters (k + 1) bundled without
  | schema =>
    exact ⟨_, rfl, rfl, (Unaided.sendSchema h (k + 1)).mono fun _ _ _ _ => trivial⟩
  | entry =>
    refine ⟨_, Machine.exec_sendEntry_share k now.toFunctionHost,
      Machine.exec_sendEntry_share k without, ?_⟩
    refine (Unaided.sendSchema h k).bind fun _ x _ hx => ?_
    obtain ⟨d, hd, hx⟩ := hx
    have entry : (functionEntry x).Within d := ⟨⟨trivial, trivial⟩, ⟨trivial, hx⟩, trivial⟩
    exact (Unaided.share h.sites hd entry).mono fun _ _ _ _ => trivial

/-! ## Names -/

section Named

variable {v : World} {n : Nat} {p : Draft} {D : Definition Stored} {own : Nat → Prop}

theorem Later.named (h : w.Later v own) (names : Names) :
    (w.named names).Later (v.named names) own where
  rest := congrArg (World.named · names) h.rest
  classes := h.classes
  objects := h.objects
  handles := h.handles
  cells := h.cells
  cells_le := h.cells_le
  marks_le := h.marks_le

theorem Uses.withLog (h : b.Uses n u E) (records : List Record) :
    b.Uses n { u with log := records } E :=
  ⟨h.later.log records, h.data, h.fresh, h.objects⟩

theorem Uses.named (h : b.Uses n u E) (names : Names) : (b.named names).Uses n (u.named names) E where
  later := h.later.named names
  data := h.data
  fresh := h.fresh
  objects := h.objects

theorem Publishes.named (h : b.Publishes s card places C) (names : Names) :
    (b.named names).Publishes s card places C where
  toTitled := ⟨h.tellsName, h.tellsDescription, h.ownName, h.ownDescription, h.data⟩
  methods := h.methods.named names
  parameters := h.parameters
  shelf := h.shelf.named names
  bundled := h.bundled.named names
  holds := h.holds
  sites := h.sites
  bundledBelow := h.bundledBelow
  apart := h.apart
  spared := h.spared
  free := h.free

theorem Became.named (h : b.Became s p D C) (names : Names) : (b.named names).Became s p D C where
  toHelped := ⟨h.sites, h.toHelped.rooted, h.free, h.held, h.above⟩
  execute := h.execute
  reads := h.reads
  call := h.call
  toolName := h.toolName
  opens := h.opens
  declares := h.declares.named names
  ofInstance := h.ofInstance
  ofClass := h.ofClass
  later := h.later
  spares := h.spares
  title := h.title
  unset := h.unset

theorem Inert.named {a : Attribute} (h : b.Inert a) (names : Names) : (b.named names).Inert a := by
  cases h with
  | value hx => exact .value hx
  | slot n name => exact .slot n name
  | ofInstance hr hu => exact .ofInstance hr hu
  | ofClass hr hu => exact .ofClass hr hu

theorem Incurious.named (h : b.Incurious s D) (names : Names) : (b.named names).Incurious s D where
  block := h.block
  sets n a ha := (h.sets n a ha).named names
  prepares n a ha := (h.prepares n a ha).named names
  makes := h.makes

end Named

end World

namespace Session

open World

variable {b u : World} {s : HelperSites} {card : FunctionCard} {places : Shelf} {C E : Nat → Prop}
  {e : Stage} {log : List Record} {c : String} {p : Draft} {D : Definition Stored} {plays : Prop}

/-- A step on a class that has a name: it is asked what was declared on it, or, where that is allowed,
an object of it is made, executes, or takes a mapping. -/
inductive StepOn (c : String) (plays : Prop) : Step → Prop
  | tell (g : FunctionGetter) : StepOn c plays (.callClass c g.attribute [] [])
  | make (hp : plays) (i : String) : StepOn c plays (.new i c)
  | call (hp : plays) (i : String) {name : String} (hn : name = "execute" ∨ name = "call")
      (args : List Literal) (named : Literal.Rows) : StepOn c plays (.callObject i name args named)

/-- A class that a definition became: it publishes what was declared on it, and where objects of it are
made and called nothing is asked for a helper. -/
structure Stands (b : World) (s : HelperSites) (p : Draft) (D : Definition Stored) (card : FunctionCard)
    (places : Shelf) (C : Nat → Prop) (plays : Prop) : Prop where
  publishes : b.Publishes s card places C
  became : plays → b.Became s p D C
  incurious : plays → b.Incurious s D

/-- A session beside one without the helpers of a class: the class has its name, and under names that
are used only objects of it are found. -/
structure Parallel (b : World) (s : HelperSites) (c : String) (ids : String → Prop) (u u' : World)
    (E : Nat → Prop) : Prop where
  uses : (b.named u.names).Uses s.cls u E
  stripped : ∃ log, u' = u.stripped s log
  bound : Table.find? u.classIds c = some (.made s.cls)
  objects : ∀ i, ids i → Table.find? u.objectIds i = none ∨
    ∃ o, Table.find? u.objectIds i = some (objectValue o) ∧ b.Made (u.stage E) o

theorem perform_of_exec {w v : World} {step : Step} {x : Except Fault Value}
    (hr : (machine.step step).exec { w with log := [] } = (x, v)) :
    perform w step = (⟨x.bind (Answer.ofValue v), v.log⟩, v) := by
  have told := perform_outcome w step
  have world := perform_eq w step
  rw [hr] at told world
  have parts : perform w step =
      (⟨(perform w step).1.outcome, (perform w step).2.log⟩, (perform w step).2) := rfl
  rw [told, world] at parts
  exact parts

theorem perform_unaided {step : Step} {Q : Stage → Value → Prop} (hu : b.Uses s.cls u E)
    (h : b.Unaided s (u.stage E) Q (machine.step step)) (log : List Record) :
    ∃ (x : Except Fault Value) (v : World) (E' : Nat → Prop) (log' : List Record),
      perform u step = (⟨x.bind (Answer.ofValue v), v.log⟩, v) ∧
      perform (u.stripped s log) step =
        (⟨x.bind (Answer.ofValue (v.stripped s log')), log'⟩, v.stripped s log') ∧
      b.Uses s.cls v E' ∧ (u.stage E).Below (v.stage E') ∧ ∀ a, x = .ok a → Q (v.stage E') a := by
  obtain ⟨x, v, E', log', hr, hr', hv, hb, hq⟩ := h { u with log := [] } E [] (hu.withLog []) (.refl _)
  exact ⟨x, v, E', log', perform_of_exec hr, perform_of_exec hr', hv, hb, hq⟩

/-- The world in which what was made has a name, if something was made. -/
def naming (v : World) (i : String) : Except Fault Value → World
  | .ok o => v.named { v.names with objects := Table.insert i o v.objectIds }
  | .error _ => v

theorem perform_making {w v : World} {n : ClassRef} {x : Except Fault Value}
    (hc : Table.find? w.classIds c = some n) (i : String)
    (hr : ((Machine.nested 999).invoke (classValue n) [] []).exec { w with log := [] } = (x, v)) :
    perform w (.new i c) = (⟨x.map fun _ => .null, v.log⟩, naming v i x) := by
  have step : (machine.step (.new i c)).exec { w with log := [] } = Run.exec (do
      let o ← (Machine.nested 999).invoke (classValue n) [] []
      modify fun w => { w with objectIds := Table.insert i o w.objectIds }
      return Value.null) { w with log := [] } := by
    show Run.exec (do
      let o ← (Machine.nested 999).invoke (classValue (← Run.classById c)) [] []
      modify fun w => { w with objectIds := Table.insert i o w.objectIds }
      return Value.null) _ = _
    rw [Run.exec_bind, exec_classById (b := w) (w := { w with log := [] }) rfl, hc]
  rw [Run.exec_bind, hr] at step
  cases x with
  | ok o => exact perform_of_exec step
  | error f => exact perform_of_exec step

variable {u' v : World} {ids : String → Prop} {i : String} {E' : Nat → Prop}

theorem Uses.names (hv : (b.named u.names).Uses s.cls v E') : v.names = u.names := hv.later.names

theorem Parallel.next (h : Parallel b s c ids u u' E) (hv : (b.named u.names).Uses s.cls v E')
    (hb : (u.stage E).Below (v.stage E')) (log : List Record) :
    Parallel b s c ids v (v.stripped s log) E' where
  uses := by
    rw [Uses.names hv]
    exact hv
  stripped := ⟨log, rfl⟩
  bound := by
    rw [show v.classIds = u.classIds from congrArg Names.classes (Uses.names hv)]
    exact h.bound
  objects i hi := by
    rw [show v.objectIds = u.objectIds from congrArg Names.objects (Uses.names hv)]
    exact (h.objects i hi).imp_right fun ⟨o, ho, hm⟩ => ⟨o, ho, hm.mono hb⟩

theorem Parallel.bound_uses (h : Parallel b s c ids u u' E)
    (hv : (b.named u.names).Uses s.cls v E') : Table.find? v.classIds c = some (.made s.cls) := by
  rw [show v.classIds = u.classIds from congrArg Names.classes (Uses.names hv)]
  exact h.bound

theorem Parallel.tell (hs : Stands b s p D card places C plays) (h : Parallel b s c ids u u' E)
    (g : FunctionGetter) :
    (perform u' (.callClass c g.attribute [] [])).1.outcome =
        (perform u (.callClass c g.attribute [] [])).1.outcome ∧
      ∃ E', Parallel b s c ids (perform u (.callClass c g.attribute [] [])).2
        (perform u' (.callClass c g.attribute [] [])).2 E' := by
  obtain ⟨log, rfl⟩ := h.stripped
  have publishes := hs.publishes.named u.names
  have now := publishes.uses h.uses
  have hr := now.retains log
  constructor
  · rw [function_tells (now.bundled.stripped publishes.bundledBelow) (hr.holdsData now.holds)
      (now.stripped log) h.bound g, function_tells now.bundled now.holds now.toFunctionHost h.bound g,
      className_stripped, hr.functionTells now.holds now.isData]
  · have asked : (b.named u.names).Unaided s (u.stage E) (fun _ _ => True)
        (machine.step (.callClass c g.attribute [] [])) :=
      .of_exec fun v F log hv _ => ⟨_, exec_getter (h.bound_uses hv),
        exec_getter (w := v.stripped s log) (Parallel.bound_uses (v := v) h hv),
        .getter publishes 996 g⟩
    obtain ⟨x, v, F, log', hp, hp', hv, hb, -⟩ := perform_unaided h.uses asked log
    rw [hp, hp']
    exact ⟨F, h.next hv hb log'⟩

theorem Parallel.call (hs : Stands b s p D card places C plays) (hp : plays)
    (h : Parallel b s c ids u u' E) (hi : ids i) {name : String} (hn : name = "execute" ∨ name = "call")
    (args : List Literal) (named : Literal.Rows) :
    (perform u' (.callObject i name args named)).1.outcome =
        (perform u (.callObject i name args named)).1.outcome ∧
      ∃ E', Parallel b s c ids (perform u (.callObject i name args named)).2
        (perform u' (.callObject i name args named)).2 E' := by
  obtain ⟨log, rfl⟩ := h.stripped
  rcases h.objects i hi with hnone | ⟨o, hfound, ho⟩
  · obtain ⟨hout, hworld⟩ := perform_unnamed hnone name args named
    obtain ⟨hout', hworld'⟩ := perform_unnamed (w := u.stripped s log) hnone name args named
    rw [hout, hout', hworld, hworld']
    exact ⟨rfl, E, h.uses.withLog [], ⟨[], rfl⟩, h.bound, h.objects⟩
  · have became := (hs.became hp).named u.names
    have incurious := (hs.incurious hp).named u.names
    have called : (b.named u.names).Unaided s (u.stage E) Stage.Has
        (machine.step (.callObject i name args named)) := by
      refine .of_exec fun v F log hv _ => ?_
      have hfound : Table.find? v.objectIds i = some (objectValue o) := by
        rw [show v.objectIds = u.objectIds from congrArg Names.objects (Uses.names hv)]
        exact hfound
      exact ⟨_, exec_callObject hfound name args named,
        exec_callObject (w := v.stripped s log) hfound name args named,
        (Blind.callAttribute became incurious 997
          (fun k => blind_nested became.toHelped incurious.sets k) ho hn args named).weaken ‹_›⟩
    obtain ⟨x, v, F, log', hp, hp', hv, hb, hq⟩ := perform_unaided h.uses called log
    rw [hp, hp']
    refine ⟨?_, F, h.next hv hb log'⟩
    cases x with
    | error f => rfl
    | ok a => exact (retains_stripped (hv.spares became.sites)).ofValue hv.data (hq a rfl)

theorem Parallel.make (hs : Stands b s p D card places C plays) (hp : plays)
    (h : Parallel b s c ids u u' E) (i : String) :
    (perform u' (.new i c)).1.outcome = (perform u (.new i c)).1.outcome ∧
      ∃ E', Parallel b s c ids (perform u (.new i c)).2 (perform u' (.new i c)).2 E' := by
  obtain ⟨log, rfl⟩ := h.stripped
  have became := (hs.became hp).named u.names
  have incurious := (hs.incurious hp).named u.names
  obtain ⟨x, v, F, log', hr, hr', hv, hb, hq⟩ :=
    Blind.makes (e := u.stage E) became incurious 998
      (blind_nested became.toHelped incurious.sets 998) _ E [] (h.uses.withLog []) (.refl _)
  rw [perform_making h.bound i hr, perform_making (w := u.stripped s log) h.bound i hr']
  have next := h.next hv hb log'
  cases x with
  | error f => exact ⟨rfl, F, next⟩
  | ok a =>
    obtain ⟨o, rfl, ho⟩ := hq a rfl
    have objects (j : String) (hj : ids j) :
        Table.find? (Table.insert i (objectValue o) v.objectIds) j = none ∨
          ∃ o', Table.find? (Table.insert i (objectValue o) v.objectIds) j = some (objectValue o') ∧
            b.Made (v.stage F) o' := by
      rw [Table.find?_insert]
      split
      · exact .inr ⟨o, rfl, ho⟩
      · exact next.objects j hj
    exact ⟨rfl, F, next.uses.named _, ⟨log', rfl⟩, next.bound, objects⟩

theorem Parallel.run (hs : Stands b s p D card places C plays) (h : Parallel b s c ids u u' E)
    {steps : List Step} (hsteps : ∀ step ∈ steps, StepOn c plays step)
    (hids : ∀ step ∈ steps, ∀ i, step.object? = some i → ids i) :
    (performAll u' steps).1.map Reply.outcome = (performAll u steps).1.map Reply.outcome := by
  induction steps generalizing u u' E with
  | nil => rfl
  | cons step steps ih =>
    obtain ⟨hstep, hsteps⟩ := List.forall_mem_cons.mp hsteps
    obtain ⟨hid, hids⟩ := List.forall_mem_cons.mp hids
    have first : (perform u' step).1.outcome = (perform u step).1.outcome ∧
        ∃ E', Parallel b s c ids (perform u step).2 (perform u' step).2 E' := by
      cases hstep with
      | tell g => exact h.tell hs g
      | make hp i => exact h.make hs hp i
      | call hp i hn args named => exact h.call hs hp (hid i rfl) hn args named
    obtain ⟨houtcome, E', hnext⟩ := first
    show (perform u' step).1.outcome :: (performAll (perform u' step).2 steps).1.map Reply.outcome =
      (perform u step).1.outcome :: (performAll (perform u step).2 steps).1.map Reply.outcome
    rw [houtcome, ih hnext hsteps hids]

end Session
end Toolwright
