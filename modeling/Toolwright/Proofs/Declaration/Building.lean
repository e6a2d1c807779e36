import Toolwright.Proofs.Declaration.Defining
import Toolwright.Session.Basic

/-!
# Building a definition

A session declares one thing after another of a definition that it has a name for. Steps that fail
leave the definition as it was, so it is always what the steps that succeeded made of it.
-/

/-!
## Names of a session

A session gives names to definitions, to classes and to objects. What stands in a world stands there
whatever the names are.
-/

namespace Toolwright

set_option autoImplicit false

namespace World

/-- The names that a session has given. -/
structure Names where
  definitions : List (String × Value)
  classes : List (String × ClassRef)
  objects : List (String × Value)

def names (w : World) : Names := ⟨w.definitionIds, w.classIds, w.objectIds⟩

def named (w : World) (names : Names) : World :=
  { w with definitionIds := names.definitions, classIds := names.classes, objectIds := names.objects }

theorem Later.names {w v : World} {own : Nat → Prop} (h : w.Later v own) : v.names = w.names := by
  have hrest := congrArg World.names h.rest
  exact hrest

variable {w : World} {C : Nat → Prop} {n o c : Nat} {p : Draft} {D : Definition Stored}

theorem HoldsData.named (h : w.HoldsData C) (names : Names) : (w.named names).HoldsData C := h

theorem Bundled.named (h : w.Bundled) (names : Names) : (w.named names).Bundled :=
  ⟨h.classes, h.places⟩

theorem ObjectAt.named {fields : Named} (h : w.ObjectAt o n c fields) (names : Names) :
    (w.named names).ObjectAt o n c fields := ⟨h.object, h.cell⟩

theorem Drafts.named (h : w.Drafts p D) (names : Names) : (w.named names).Drafts p D where
  object := h.object.named names
  params := h.params
  specs := h.specs.imp fun _ _ hs => hs.named names
  table := h.table.named names
  ofInstance := h.ofInstance
  ofClass := h.ofClass
  cells := h.cells
  block := h.block
  instanceBodies := h.instanceBodies
  classBodies := h.classBodies
  instanceNames := h.instanceNames
  classNames := h.classNames

theorem Declares.named (h : w.Declares p D C) (names : Names) : (w.named names).Declares p D C where
  toDrafts := h.toDrafts.named names
  bundled := h.bundled.named names
  data := h.data
  apart := h.apart
  values := h.values

end World

/-! ## Building -/

/-- What declarations one after another make of a definition, some of which may have failed. -/
inductive Definition.Built : Definition Stored → List Builder → Definition Stored → Prop
  | nil (D : Definition Stored) : Built D [] D
  | done {D D' D'' : Definition Stored} {op : Builder} {ops : List Builder} :
    D.Next op D' → Built D' ops D'' → Built D (op :: ops) D''
  | failed {D D' : Definition Stored} {ops : List Builder} (op : Builder) :
    Built D ops D' → Built D (op :: ops) D'

def Builder.stores? : Builder → Option Block
  | .execute block => some block
  | _ => none

theorem Definition.Next.block_eq {D D' : Definition Stored} {op : Builder} (h : D.Next op D') :
    D'.block.map (·.block) = op.stores?.or (D.block.map (·.block)) := by
  cases h with
  | describe text x => cases x <;> rfl
  | help scope name s => cases scope <;> rfl
  | _ => rfl

theorem Definition.Built.of_block {D D' : Definition Stored} {ops : List Builder}
    (h : D.Built ops D') {block : Block} (hs : D'.block.map (·.block) = some block) :
    D.block.map (·.block) = some block ∨ ∃ op ∈ ops, op.stores? = some block := by
  induction h with
  | nil D => exact .inl hs
  | @done _ _ _ op ops hn hb ih =>
    rcases ih hs with hm | ⟨op', hop, he⟩
    · rw [hn.block_eq] at hm
      rcases Option.or_eq_some_iff.mp hm with he | ⟨-, he⟩
      · exact .inr ⟨op, List.mem_cons_self, he⟩
      · exact .inl he
    · exact .inr ⟨op', List.mem_cons_of_mem _ hop, he⟩
  | failed op hb ih =>
    exact (ih hs).imp_right fun ⟨op, hop, he⟩ => ⟨op, List.mem_cons_of_mem _ hop, he⟩

theorem Definition.Next.stored {D D' : Definition Stored} {b : Block} (h : D.Next (.execute b) D') :
    ∃ s, s.block = b ∧ D' = D.store s := by
  generalize hop : Builder.execute b = op at h
  cases h with
  | store s => exact ⟨s, (Builder.execute.inj hop).symm, rfl⟩
  | _ => cases hop

/-- The block that a declaration has stored to be executed, by what was replied. -/
def Builder.stored? (op : Builder) (reply : Session.Reply) : Option Block :=
  if reply.outcome.isOk then op.stores? else none

namespace Session

/-- A name of a session stands for a definition as it was declared. -/
structure Holds (w : World) (id : String) (p : Draft) (D : Definition Stored) (C : Nat → Prop) :
    Prop extends w.Declares p D C where
  named : Table.find? w.definitionIds id = some p.value

variable {w v u : World} {id : String} {p p' : Draft} {D D' : Definition Stored} {C C' : Nat → Prop}

theorem Holds.further (h : Holds w id p D C) (hf : w.Further v p p' D' C C') :
    Holds v id p' D' C' where
  toDeclares := hf.declares
  named := by
    have hids := congrArg World.definitionIds hf.later.rest
    rw [hids, h.named, hf.place]
    rfl

theorem Holds.log (h : Holds w id p D C) (log : List Record) : Holds { w with log } id p D C :=
  h.further (h.unchanged ((World.Later.refl w _).log log))

theorem perform_eq (w : World) (step : Step) :
    (perform w step).2 = ((machine.step step).exec { w with log := [] }).2 := rfl

theorem perform_outcome (w : World) (step : Step) : (perform w step).1.outcome =
    ((machine.step step).exec { w with log := [] }).1.bind
      (Answer.ofValue ((machine.step step).exec { w with log := [] }).2) := rfl

theorem exec_named (h : Holds w id p D C) {step : Step} (hs : machine.step step = (do
      (Machine.nested 999).definitionStep (← Run.definitionById (some id)) step)) :
    (machine.step step).exec w = ((Machine.nested 999).definitionStep p.value step).exec w := by
  have found : (Run.definitionById (some id)).exec w = (.ok p.value, w) := by
    unfold Run.definitionById
    rw [Run.exec_bind, Run.exec_world]
    dsimp only
    unfold Run.resolveId
    rw [Run.exec_bind, Run.exec_world]
    dsimp only
    rw [h.named]
    rfl
  rw [hs, Run.exec_bind, found]

theorem of_execute {k : Nat} {x a : Value} {b : Block}
    (h : ((Machine.nested k).definitionStep x (.execute (some id) b)).exec w = (.ok a, v)) :
    a = .bool true := by
  replace h : Run.exec (do
      let function ← Run.newHandle (.body .ofInstance (.block b)) none
      let _ ← (Machine.nested k).send x "execute" [function] []
      return .bool true) w = (.ok a, v) := h
  rw [Run.exec_bind] at h
  rcases Run.exec_bind_cases h with ⟨f, hf, -⟩ | ⟨_, u, -, h⟩
  · cases hf
  · cases h
    rfl

/-- A step of a session that declares something of a definition does so, or fails and leaves it as it
was. A helper is always registered, and a block is stored if the step succeeds. -/
theorem perform_builder (h : Holds w id p D C) (op : Builder) :
    ∃ p' D' C', Holds (perform w (op.step id)).2 id p' D' C' ∧
      (D.Next op D' ∨ D' = D ∧ ∃ f, (perform w (op.step id)).1.outcome = .error f) ∧
      (∀ scope name,
        D'.helperBlock? scope name = (op.helper? scope name).or (D.helperBlock? scope name)) ∧
      D'.block.map (·.block) =
        (op.stored? (perform w (op.step id)).1).or (D.block.map (·.block)) ∧
      w.Further (perform w (op.step id)).2 p p' D' C C' := by
  have logged := h.unchanged ((World.Later.refl w _).log [])
  have named : machine.step (op.step id) = (do
      (Machine.nested 999).definitionStep (← Run.definitionById (some id)) (op.step id)) := by
    cases op <;> rfl
  have develops := Machine.exec_declaring 996 (h.log []).toDeclares id op
  have told : ∀ a v, ((Machine.nested 999).definitionStep p.value (op.step id)).exec
      { w with log := [] } = (.ok a, v) → op.stores? ≠ none → a = .bool true := by
    intro a v hr hs
    cases op with
    | execute block => exact of_execute hr
    | _ => exact absurd rfl hs
  unfold Builder.stored?
  rw [perform_outcome, perform_eq, exec_named (h.log []) named]
  generalize ((Machine.nested 999).definitionStep p.value (op.step id)).exec _ = x at develops told
  cases develops with
  | @done a v _ _ _ hn hf =>
    refine ⟨_, _, _, (h.log []).further hf, .inl hn, hn.helperBlock?, ?_, logged.trans hf⟩
    rw [hn.block_eq]
    cases hs : op.stores? with
    | none => rw [ite_self]
    | some b =>
      obtain rfl := told a v rfl (by rw [hs]; nofun)
      rfl
  | failed hr hf =>
    refine ⟨_, _, _, (h.log []).further hf, .inr ⟨rfl, _, rfl⟩, fun scope name => ?_, rfl,
      logged.trans hf⟩
    rw [hr, Option.none_or]

theorem perform_builder_ok (h : Holds w id p D C) {op : Builder}
    (ha : (perform w (op.step id)).1.outcome.isOk = true) :
    ∃ p' D' C', Holds (perform w (op.step id)).2 id p' D' C' ∧ D.Next op D' ∧
      w.Further (perform w (op.step id)).2 p p' D' C C' := by
  obtain ⟨p', D', C', hh, hn | ⟨-, f, hf⟩, -, -, hfur⟩ := perform_builder h op
  · exact ⟨p', D', C', hh, hn, hfur⟩
  · rw [hf] at ha
    cases ha

/-- The block that is registered last as a helper of a scope under a name, if none was before. -/
def lastHelper (ops : List Builder) (scope : Scope) (name : String) : Option Block :=
  ops.reverse.findSome? fun op => op.helper? scope name

theorem lastHelper_cons (op : Builder) (ops : List Builder) (scope : Scope) (name : String) :
    lastHelper (op :: ops) scope name = (lastHelper ops scope name).or (op.helper? scope name) := by
  unfold lastHelper
  rw [List.reverse_cons, List.findSome?_append, List.findSome?_singleton]

/-- Declarations one after another change nothing but the cells of the definition, which is what
those that succeeded made of it. Each helper is the one that was registered last. -/
theorem performAll_helpers (h : Holds w id p D C) (ops : List Builder) :
    ∃ p' D' C', Holds (performAll w (ops.map (Builder.step id))).2 id p' D' C' ∧ D.Built ops D' ∧
      (∀ scope name,
        D'.helperBlock? scope name = (lastHelper ops scope name).or (D.helperBlock? scope name)) ∧
      w.Further (performAll w (ops.map (Builder.step id))).2 p p' D' C C' := by
  induction ops generalizing w p D C with
  | nil => exact ⟨p, D, C, h, .nil D, fun _ _ => rfl, h.unchanged (World.Later.refl w _)⟩
  | cons op ops ih =>
    obtain ⟨p₁, D₁, C₁, h₁, hn, hhelp₁, -, hf₁⟩ := perform_builder h op
    obtain ⟨p₂, D₂, C₂, h₂, hb, hhelp₂, hf₂⟩ := ih h₁
    refine ⟨p₂, D₂, C₂, h₂, ?_, fun scope name => ?_, hf₁.trans hf₂⟩
    · rcases hn with hn | ⟨rfl, -⟩
      · exact .done hn hb
      · exact .failed op hb
    · rw [hhelp₂, hhelp₁, lastHelper_cons, Option.or_assoc]

theorem performAll_builders (h : Holds w id p D C) (ops : List Builder) :
    ∃ p' D' C', Holds (performAll w (ops.map (Builder.step id))).2 id p' D' C' ∧ D.Built ops D' ∧
      w.Further (performAll w (ops.map (Builder.step id))).2 p p' D' C C' := by
  obtain ⟨p', D', C', hh, hb, -, hf⟩ := performAll_helpers h ops
  exact ⟨p', D', C', hh, hb, hf⟩

theorem Holds.bind (h : w.Declares p D C) (id : String) :
    Holds (w.named { w.names with definitions := Table.insert id p.value w.definitionIds }) id p D C
    where
  toDeclares := h.named _
  named := (Table.find?_insert w.definitionIds id id p.value).trans (if_pos rfl)

theorem define_cases (hb : w.Bundled) (hd : w.HoldsData C) {name : Literal} {x : Except Fault Value}
    (hr : (machine.step (.define id name none)).exec w = (x, v)) :
    (w.Gains C v ∧ ∃ f, x = .error f) ∨ ∃ u y, x = .ok y ∧ w.Gains C u ∧
      y.Within (u.data (w.gained C u)) ∧ y.IsShared ∧ v = (u.withDefinition y).named { u.names with
        definitions := Table.insert id (newDraft u).value u.definitionIds } := by
  have step : (machine.step (.define id name none)).exec w = Run.exec (do
      let name ← Run.literal name
      let d ← (Machine.nested 999).invoke (World.classValue (.made definitionClass)) [name] []
      modify fun w => { w with definitionIds := Table.insert id d w.definitionIds }
      return name) w := rfl
  have hg := hd.gains (Q := Link.Renamed) (fun L e => Link.literal_agree name)
  rw [step] at hr
  rcases Run.exec_bind_cases hr with ⟨f, rfl, hname⟩ | ⟨y, u, hname, hr⟩
  · rw [hname] at hg
    exact .inl ⟨hg, f, rfl⟩
  · rw [hname] at hg
    obtain ⟨hy, hs⟩ := hd.literal hname
    rw [Run.exec_bind, Machine.exec_makeDefinition 995 (hg.later.bundled hb) y] at hr
    cases hr
    exact .inr ⟨u, y, rfl, hg, hy, hs, rfl⟩

theorem perform_define (hb : w.Bundled) (hd : w.HoldsData C) (id : String) (name : Literal)
    {a : Answer} (ha : (perform w (.define id name none)).1.outcome = .ok a) :
    ∃ p x C', Holds (perform w (.define id name none)).2 id p { name := x } C' ∧
      (∀ n, C n → C' n) ∧ (∀ n, C' n → C n ∨ w.cells.length ≤ n) ∧
      (∀ n, p.changes n → w.cells.length ≤ n) ∧
      ∃ u, w.Later u (fun _ => False) ∧ (perform w (.define id name none)).2 =
        u.named { u.names with definitions := Table.insert id p.value u.definitionIds } := by
  let w₀ : World := { w with log := [] }
  have hl : w.Later w₀ fun _ => False := (World.Later.refl w _).log []
  have hd₀ : w₀.HoldsData C := (hl.retains hd fun _ _ => fun h => h).holdsData hd
  have told : (perform w (.define id name none)).1.outcome =
      ((machine.step (.define id name none)).exec w₀).1.bind
        (Answer.ofValue ((machine.step (.define id name none)).exec w₀).2) := rfl
  rw [perform_eq]
  rw [told] at ha
  cases hr : (machine.step (.define id name none)).exec w₀ with
  | mk result v =>
    rw [hr] at ha
    obtain ⟨-, f, rfl⟩ | ⟨u, x, rfl, hg, hx, hs, rfl⟩ := define_cases (hl.bundled hb) hd₀ hr
    · cases ha
    have hu : w.Later u fun _ => False := hl.trans hg.later fun _ hn _ => hn
    refine ⟨newDraft u, x, _, .bind (World.declares_withDefinition (hg.later.bundled
      (hl.bundled hb)) hg.data hx hs) id, (hg.below hd₀).cell, fun _ => And.left, fun n hn => ?_, _,
      hu.trans (u.later_withDefinition x) fun _ hn _ => hn, rfl⟩
    have hle := hu.cells_le
    simp only [Draft.changes, newDraft] at hn
    omega

theorem bundled_start : start.Bundled :=
  ⟨fun _ _ _ => rfl, fun _ => rfl⟩

theorem holdsData_start : start.HoldsData fun _ => False := fun _ => False.elim

end Session

end Toolwright
