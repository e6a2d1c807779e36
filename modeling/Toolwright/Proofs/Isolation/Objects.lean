import Toolwright.Proofs.Adaptation.Delivery
import Toolwright.Proofs.Isolation.Calls
import Toolwright.Proofs.Isolation.Unaided

/-!
# Objects without helpers

An object of a class that a definition became is made, executes the block of the definition and takes
mappings of arguments. If the block asks nothing, and neither do the hooks of the class, all of this is
the same in a world from which the helpers of the class were stripped.
-/

namespace Toolwright

set_option autoImplicit false

/-- The definition without its helpers. -/
def Definition.helperless (D : Definition Stored) : Definition Stored :=
  { D with instanceHelpers := [], classHelpers := [] }

namespace World

/-- A class that a definition became: its helpers are at the sites that a world can be stripped of, and
its objects can be made and called. -/
structure Became (w : World) (s : HelperSites) (p : Draft) (D : Definition Stored)
    (C : Nat → Prop) : Prop extends w.Helped s, w.TakesMappings s.cls p.object where
  opens : w.isOpen (.made s.cls) = true
  declares : w.Declares p D C
  ofInstance : s.ofInstance = p.ofInstance
  ofClass : s.ofClass = p.ofClass
  later : 9 ≤ s.cls
  spares : ∀ name ∈ ["execute", "call", "tool_name", "_name"], name ∉ s.names
  title : ∃ text, w.own? (.made s.cls) "_name" = some (.value (.str text))
  unset : w.extras = []

/-- Neither the block of a definition nor a hook of the class that it became asks anything. -/
structure Incurious (w : World) (s : HelperSites) (D : Definition Stored) : Prop where
  block : ∀ st, D.block = some st → ∀ u ∈ st.block.uses, AsksNothing u
  sets : w.InertHook (.made s.cls) "__setattr__"
  prepares : w.InertHook (.made s.cls) "__init__"
  makes : ∀ n a, w.find? (.made s.cls) "__new__" = some (.made n, a) →
    (∃ x, a = .value x ∧ Uncallable x) ∨ ∃ k name, a = .slot k name

variable {b u : World} {s : HelperSites} {p : Draft} {D : Definition Stored} {C E : Nat → Prop}
  {log : List Record}

/-! ## The definition -/

theorem Bundled.stripped (h : u.Bundled) (hn : 9 ≤ s.cls) : (u.stripped s log).Bundled where
  classes n hn' hlt := by
    have kept : (u.stripped s log).classes[n]? = u.classes[n]? :=
      List.getElem?_modify_ne _ _ (by omega)
    exact kept.trans (h.classes n hn' hlt)
  places := h.places

theorem ObjectAt.stripped {o n c : Nat} {fields : Named} (h : u.ObjectAt o n c fields)
    (hc : s.Spares c) : (u.stripped s log).ObjectAt o n c fields :=
  ⟨h.object, (cells_stripped hc).trans h.cell⟩

theorem Drafts.spares (h : u.Drafts p D) (hi : s.ofInstance = p.ofInstance)
    (hc : s.ofClass = p.ofClass) {n : Nat}
    (hn : n ∈ p.own :: p.params :: p.tableOwn :: p.specs.map (·.2)) : s.Spares n := by
  have hnodup := h.cells
  unfold HelperSites.Spares
  rw [hi, hc]
  simp only [Draft.cells, List.nodup_cons, List.mem_cons, List.mem_map] at hnodup hn
  grind

theorem Declares.apart_sites (h : u.Declares p D C) (hi : s.ofInstance = p.ofInstance)
    (hc : s.ofClass = p.ofClass) (n : Nat) (hn : C n) : s.Spares n := by
  constructor
  · rintro rfl
    exact h.apart _ (by simp [Draft.cells, hi]) hn
  · rintro rfl
    exact h.apart _ (by simp [Draft.cells, hc]) hn

theorem Declares.stripped (h : u.Declares p D C) (hi : s.ofInstance = p.ofInstance)
    (hc : s.ofClass = p.ofClass) (hn : 9 ≤ s.cls) :
    (u.stripped s log).Declares p D.helperless C where
  object := h.object.stripped (h.spares hi hc (by simp))
  params := (cells_stripped (h.spares hi hc (by simp))).trans h.params
  specs := ((List.forall₂_and_left _ _).mpr ⟨fun _ hm => hm, h.specs⟩).imp fun row _ hr =>
    hr.2.stripped (h.spares hi hc (by simp only [List.mem_cons, List.mem_map]; grind))
  table := h.table.stripped (h.spares hi hc (by simp))
  ofInstance := by
    have hlt := h.lt (n := p.ofInstance) (by simp [Draft.cells])
    have hne : p.ofClass ≠ p.ofInstance := by
      have := h.cells
      simp only [Draft.cells, List.nodup_cons, List.mem_cons] at this
      grind
    show ((u.cells.set _ _).set _ _)[_]? = _
    rw [hi, hc, List.getElem?_set_ne hne, List.getElem?_set_self hlt]
    rfl
  ofClass := by
    have hlt := h.lt (n := p.ofClass) (by simp [Draft.cells])
    show ((u.cells.set _ _).set _ _)[_]? = _
    rw [hi, hc, List.getElem?_set_self (by rwa [List.length_set])]
    rfl
  cells := h.cells
  block := h.block
  instanceBodies := List.forall_mem_nil _
  classBodies := List.forall_mem_nil _
  instanceNames := List.nodup_nil
  classNames := List.nodup_nil
  bundled := h.bundled.stripped hn
  data := (retains_stripped (h.apart_sites hi hc)).holdsData h.data
  apart := h.apart
  values x hx := h.values x hx

/-! ## What objects reach -/

variable {e : Stage} {m : Machine} {o : Nat} {name : String} {args : List Value} {named : Named}
  {x : Value}

theorem Blind.callData (hm : b.Blind s m) (hx : e.Has x) :
    b.Unaided s e Stage.Has (m.invoke x args named) := by
  refine .of_exec fun u E log hu he => ⟨_, rfl, rfl, .mono (hm.uncalled ⟨u.marks, ?_⟩) ?_⟩
  on_goal 2 => exact fun _ _ _ => False.elim
  have below : (u.data E).Below ⟨fun _ => True, fun _ => False, u.marks⟩ :=
    ⟨fun _ _ => trivial, fun _ => id, Nat.le_refl _⟩
  exact Value.Within.mono (he.extent.trans below) hx

/-- What is reached under the name of a method: the method, or what was set on the object. -/
inductive Reaches (c : Access) (e : Stage) : Access → Prop
  | own {x : Value} (hx : e.Has x) : Reaches c e (.value x)
  | found : Reaches c e c

theorem Reaches.mono {c y : Access} {e e' : Stage} (h : Reaches c e y) (he : e.Below e') :
    Reaches c e' y := by
  cases h with
  | own hx => exact .own (hx.mono he)
  | found => exact .found

theorem Uses.setAttribute? (hu : b.Uses s.cls u E) (ho : b.Made (u.stage E) o)
    (hx : u.setAttribute? (objectValue o) name = some x) : x.Within (u.data E) := by
  obtain ⟨n, hcell, hE⟩ := hu.attributeCell? ho
  obtain ⟨y, hy, hw⟩ := hu.data n hE
  unfold World.setAttribute? at hx
  simp only [hcell, Option.bind_eq_bind, Option.bind_some, cell, hy, Option.getD_some] at hx
  obtain ⟨rows, hrows, hx⟩ := Option.bind_eq_some_iff.mp hx
  obtain ⟨row, hrow, hx⟩ := Option.bind_eq_some_iff.mp hx
  cases hx
  exact (Value.within_rows hw hrows row (List.mem_of_find?_eq_some hrow)).2

theorem Unaided.reach (h : b.Became s p D C) (m : Machine) (ho : b.Made e o) (hn : name ∉ s.names)
    {a : Attribute} (hf : ∃ k, b.find? (.made s.cls) name = some (.made k, a))
    (ha : Machine.IsMethod a) :
    b.Unaided s e (Reaches (Link.methodOf (objectValue o) s.cls a)) (m.reach (objectValue o) name) := by
  refine .of_exec fun u E log hu he => ?_
  obtain ⟨k, hf⟩ := hf
  have hc := hu.classOf (ho.mono he)
  have hc' : (u.stripped s log).classOf (objectValue o) = .made s.cls := hc
  have hfound := (hu.find? h.toHelped name).trans hf
  have hread (k : Nat) (x : Attribute) : u.find? (.made s.cls) "__getattribute__" ≠ some (.made k, x) := by
    rw [hu.find? h.toHelped]
    exact h.reads k x
  have helped := h.toHelped.later hu.later
  obtain ⟨n, hcell, hE⟩ := hu.attributeCell? (ho.mono he)
  have hset : (u.stripped s log).setAttribute? (objectValue o) name =
      u.setAttribute? (objectValue o) name := by
    unfold World.setAttribute?
    rw [show (u.stripped s log).attributeCell? (objectValue o) = _ from hcell, hcell]
    simp only [Option.bind_eq_bind, Option.bind_some, cell_stripped (hu.spares h.sites n hE)]
  have left := Machine.exec_reachOver m hc hfound ha hread
  have right := Machine.exec_reachOver m hc' ((World.find?_stripped fun _ => hn).trans hfound) ha
    (fun k x => by
      rw [helped.find?_reserved log _ (by decide +kernel)]
      exact hread k x)
  rw [reached_stripped, show (u.stripped s log).setAttribute? (.opaqueRef (.object o)) name = _ from
    hset] at right
  refine ⟨Pure.pure _, left, right, .returns fun e' he' => ?_⟩
  have method : u.reached (.made k) (.made s.cls) (some (objectValue o)) a =
      Link.methodOf (objectValue o) s.cls a := by
    cases ha <;> rfl
  show Reaches _ e' (((u.setAttribute? (objectValue o) name).map Access.value).getD
    (u.reached (.made k) (.made s.cls) (some (objectValue o)) a))
  rw [method]
  cases hx : u.setAttribute? (objectValue o) name with
  | none => exact .found
  | some x => exact .own ((hu.setAttribute? (ho.mono he) hx).mono he'.extent)

theorem Blind.useReached (hm : b.Blind s m) {c y : Access} (hy : Reaches c e y)
    (hc : b.Unaided s e Stage.Has (m.use c args named)) :
    b.Unaided s e Stage.Has (m.use y args named) := by
  cases hy with
  | own hx => exact hm.callData hx
  | found => exact hc

/-! ## The block that is executed -/

theorem Unaided.storedBlock (h : b.Became s p D C) (m : Machine) :
    b.Unaided s e (fun _ y => ∃ st, D.block = some st ∧ y = st.value)
      (m.storedBlock p.value) := by
  refine .of_exec fun u E log hu he => ?_
  have left : u.Declares p D C := (h.declares.unchanged hu.later).declares
  have right : (u.stripped s log).Declares p D.helperless C :=
    left.stripped h.ofInstance h.ofClass h.later
  cases hb : D.block with
  | some st =>
    refine ⟨Pure.pure st.value, ?_, ?_, .returns fun _ _ => ⟨st, rfl, rfl⟩⟩
    · unfold Machine.storedBlock
      rw [Run.exec_bind, Machine.exec_askBlock m left.toDrafts left.bundled, hb]
      rfl
    · unfold Machine.storedBlock
      rw [Run.exec_bind, Machine.exec_askBlock m right.toDrafts right.bundled,
        show D.helperless.block = some st from hb]
      rfl
  | none =>
    have named := (left.values _ List.mem_cons_self).1
    have shown := left.shows_block
    have shown' := right.shows_block
    rw [hb] at shown
    rw [show D.helperless.block = none from hb] at shown'
    refine ⟨throw (Machine.noBlockFault u D.name), ?_, ?_, .fails _⟩
    · exact Machine.exec_noBlock left.data named shown left.shows_name m u (.refl u)
    · have same : (u.stripped s log).printedOf D.name = u.printedOf D.name :=
        (retains_stripped (left.apart_sites h.ofInstance h.ofClass)).printedOf left.data named
      have fault : Machine.noBlockFault (u.stripped s log) D.name = Machine.noBlockFault u D.name := by
        unfold Machine.noBlockFault
        rw [same]
      rw [← fault]
      exact Machine.exec_noBlock right.data (right.values _ List.mem_cons_self).1 shown'
        right.shows_name m _ (.refl _)

theorem Blind.runs (hm : b.Blind s m) (h : b.Became s p D C) (hd : b.Incurious s D) (ho : b.Made e o)
    (hn : e.HasNamed named) :
    b.Unaided s e Stage.Has (m.callWith (.runs p.value) (objectValue o :: args) named) := by
  cases args with
  | nil =>
    refine (Unaided.storedBlock h m).bind fun e₁ _ h₁ hst => ?_
    obtain ⟨st, hb, rfl⟩ := hst
    exact hm.run (ho.mono h₁) (h.declares.block st hb) (hd.block st hb) (List.forall_mem_nil _)
      (hn.mono h₁)
  | cons x args => exact .fails _

/-! ## Calls by a mapping -/

theorem Blind.sendName (h : b.Became s p D C) (k : Nat) (hm : b.Blind s (Machine.nested (k + 1)))
    (ho : b.Made e o) :
    b.Unaided s e Stage.Has ((Machine.nested (k + 1)).send (objectValue o) "tool_name" [] []) := by
  unfold Machine.send
  refine (Unaided.reach h _ ho (h.spares _ (by simp)) h.toolName (.ofClass _)).bind
    fun e₁ y h₁ hy => hm.useReached hy ?_
  refine .of_exec fun u E log hu he => ?_
  obtain ⟨text, htext⟩ := h.title
  have empty (w : World) : w.HoldsData fun _ => False := fun _ hn => hn.elim
  have left : u.own? (.made s.cls) "_name" = some (.value (.str text)) := by
    rw [hu.later.own? (by rintro n ⟨⟩; exact h.rooted _ List.mem_cons_self)]
    exact htext
  have right : (u.stripped s log).own? (.made s.cls) "_name" = some (.value (.str text)) := by
    rw [own?_stripped, if_neg fun hn => h.spares "_name" (by simp) hn.2]
    exact left
  have title : (u.stripped s log).titleOf ((u.stripped s log).className (.made s.cls)) (.str text) =
      u.titleOf (u.className (.made s.cls)) (.str text) := by
    rw [className_stripped]
    rfl
  have told := Machine.exec_toolNameOf (Machine.nested k) (empty _) (.inl right) trivial
  rw [title] at told
  refine ⟨Pure.pure _, Machine.exec_toolNameOf (Machine.nested k) (empty u) (.inl left) trivial, told,
    .returns fun _ _ => ?_⟩
  unfold titleOf
  split <;> trivial

theorem Unaided.noteCall (h : b.Became s p D C) (hm : b.Blind s m) {name : Value} (hn : e.Has name)
    (hx : e.Has x) (verb : String) : b.Unaided s e (fun _ _ => True) (m.noteCall name verb x) := by
  refine .of_equal h.sites fun L hL => ?_
  have agree := Link.noteCall_agree (hm.faithful L) hn hx verb
  rwa [hL.same, Value.rename_same, Value.rename_same] at agree

theorem Unaided.callArguments (h : b.Became s p D C) (hm : b.Blind s m) (hx : e.Has x) :
    b.Unaided s e Stage.HasNamed (m.callArguments x) := by
  refine .of_renamedNamed h.sites fun L hL => ?_
  have agree := Link.callArguments_agree (hm.faithful L) hL.sealed (hL.left.trans h.unset)
    (hL.right.trans h.unset) hx
  rwa [hL.same, Value.rename_same] at agree

theorem Blind.callFunction (h : b.Became s p D C) (hd : b.Incurious s D) (k : Nat)
    (hk : ∀ k, b.Blind s (Machine.nested k)) (ho : b.Made e o) (hx : e.Has x) :
    b.Unaided s e Stage.Has ((Machine.nested (k + 1)).callFunction (objectValue o) x) := by
  unfold Machine.callFunction
  refine (Unaided.callArguments h (hk _) hx).bind fun e₁ named h₁ hn => ?_
  refine (Blind.sendName h k (hk _) (ho.mono h₁)).bind fun e₂ name h₂ hname => ?_
  have hn := hn.mono h₂
  have rows : e₂.Has (.ofRows named) := Link.within_ofNamed hn
  refine (Unaided.noteCall h (hk _) hname rows " called with: ").bind fun e₃ _ h₃ _ => ?_
  have ho := ho.mono (h₁.trans (h₂.trans h₃))
  have executed : b.Unaided s e₃ Stage.Has
      ((Machine.nested (k + 1)).send (objectValue o) "execute" [] named) :=
    (Unaided.reach h _ ho (h.spares _ (by simp)) h.execute (.ofObject _)).bind fun e₄ y h₄ hy =>
      (hk _).useReached hy ((hk k).runs h hd (ho.mono h₄) (hn.mono (h₃.trans h₄)))
  refine executed.bind fun e₄ result h₄ hresult => ?_
  refine (Blind.sendName h k (hk _) (ho.mono h₄)).bind fun e₅ name h₅ hname => ?_
  have hresult := hresult.mono h₅
  refine (Unaided.noteCall h (hk _) hname hresult " returned: ").bind fun e₆ _ h₆ _ => ?_
  exact .returns fun e₇ h₇ => hresult.mono (h₆.trans h₇)

/-- What is bound of a call by a mapping: the object, and plain data. -/
theorem HoldsData.boundCall {w : World} (hw : w.HoldsData C) {c : Value} {bound : String → Value}
    (ha : ∀ x ∈ args, x.Within (w.data C)) (hn : Named.Within (w.data C) named)
    (h : bindAll HostMethod.callFunction.signature.takes (c :: args) named = .ok bound) :
    bound "self" = c ∧ (bound "args").Within (w.data C) := by
  have hr := Retains.refl w C
  have agree := Link.bindCall_agree (L := hr.link) c c ⟨ha, hn⟩ w w (hr.linked hw)
    ⟨fun _ hn => ⟨.inl hn, hw.lt hn⟩, fun _ hr => hr.elim, Nat.le_refl _⟩
  unfold Link.Alike at agree
  rw [Run.exec_lift, h] at agree
  generalize Run.exec _ w = y at agree
  cases agree with
  | ok hl he hq =>
    refine ⟨hq.self.1, hq.within.mono ((Gains.linked hl).2.trans (w.data_mono ?_))⟩
    exact fun n hn => hn.1.resolve_right (Nat.not_le_of_lt hn.2)

theorem Blind.useCall (h : b.Became s p D C) (hd : b.Incurious s D) (k : Nat)
    (hk : ∀ k, b.Blind s (Machine.nested k)) (ho : b.Made e o) (ha : ∀ x ∈ args, e.Has x)
    (hn : e.HasNamed named) :
    b.Unaided s e Stage.Has ((Machine.nested (k + 2)).call (.bundled (.host .callFunction))
      (objectValue o :: args) named) := by
  refine .of_exec fun u E log hu he => ⟨_, rfl, rfl, ?_⟩
  have bound : b.Unaided s (u.stage E)
      (fun e bound => bound "self" = objectValue o ∧ e.Has (bound "args"))
      (Run.lift (bindAll HostMethod.callFunction.signature.takes (objectValue o :: args) named)) := by
    refine .lift fun bound hbound e' he' => ?_
    obtain ⟨hself, hargs⟩ := hu.data.boundCall (fun x hx => Value.Within.mono he.extent (ha x hx))
      (Named.Within.mono he.extent hn) hbound
    exact ⟨hself, hargs.mono he'.extent⟩
  refine bound.bind fun e' bound he' hbound => ?_
  rw [hbound.1]
  exact Blind.callFunction h hd k hk (ho.mono (he.trans he')) hbound.2

/-! ## Calls of objects -/

theorem Unaided.literals (h : b.Helped s) (ls : List Literal) :
    b.Unaided s e (fun e xs => ∀ x ∈ xs, e.Has x) (Run.literals ls) :=
  .mapM ls (fun _ _ _ he hx => Stage.Has.mono hx he) fun l _ _ _ => .literal h.sites l

theorem Unaided.literalRows (h : b.Helped s) (rows : Literal.Rows) :
    b.Unaided s e Stage.HasNamed (Run.literalRows rows) :=
  .of_renamedNamed h.sites fun _ _ => Link.literalRows_agree rows

/-- The method of an object that executes, or the one that takes a mapping, is called. -/
theorem Blind.callAttribute (h : b.Became s p D C) (hd : b.Incurious s D) (k : Nat)
    (hk : ∀ k, b.Blind s (Machine.nested k)) (ho : b.Made e o)
    (hname : name = "execute" ∨ name = "call") (args : List Literal) (named : Literal.Rows) :
    b.Unaided s e Stage.Has
      ((Machine.nested (k + 2)).callAttribute (objectValue o) name args named) := by
  unfold Machine.callAttribute
  rcases hname with rfl | rfl
  · refine (Unaided.reach h _ ho (h.spares _ (by simp)) h.execute (.ofObject _)).bind
      fun e₁ y h₁ hy => ?_
    refine (Unaided.literals h.toHelped args).bind fun e₂ xs h₂ hxs => ?_
    refine (Unaided.literalRows h.toHelped named).bind fun e₃ rows h₃ hrows => ?_
    exact (hk _).useReached (hy.mono (h₂.trans h₃))
      ((hk (k + 1)).runs h hd (ho.mono (h₁.trans (h₂.trans h₃))) hrows)
  · refine (Unaided.reach h _ ho (h.spares _ (by simp)) h.call (.ofObject _)).bind
      fun e₁ y h₁ hy => ?_
    refine (Unaided.literals h.toHelped args).bind fun e₂ xs h₂ hxs => ?_
    refine (Unaided.literalRows h.toHelped named).bind fun e₃ rows h₃ hrows => ?_
    exact (hk _).useReached (hy.mono (h₂.trans h₃))
      (Blind.useCall h hd k hk (ho.mono (h₁.trans (h₂.trans h₃)))
        (fun x hx => (hxs x hx).mono h₃) hrows)

/-! ## Making objects -/

theorem Unaided.newObject (h : b.Became s p D C) :
    b.Unaided s e (fun e x => ∃ o, x = objectValue o ∧ b.Made e o) (Run.newObject (.made s.cls)) := by
  intro u E log hu he
  have opens : u.isOpen (.made s.cls) = true := (hu.later.isOpen h.rooted).trans h.opens
  have sites := h.sites.mono hu.later.cells_le
  let obj : HostObject := ⟨.made s.cls, some u.cells.length, []⟩
  have hlt : u.objects.length < (u.objects ++ [obj]).length := by simp
  refine ⟨_, _, _, log, Machine.exec_newObject opens, ?_, hu.newObject, ⟨?_, Nat.le_of_lt hlt⟩, ?_⟩
  · rw [Machine.exec_newObject ((isOpen_stripped _).trans opens)]
    have cell : (u.stripped s log).withCell (.dict []) = (u.withCell (.dict [])).stripped s log :=
      withCell_stripped sites _
    rw [length_cells_stripped]
    exact congrArg (fun w : World => (Except.ok _, { w with objects := u.objects ++ [obj] })) cell
  · exact u.data_mono fun _ => .inl
  · rintro _ ⟨⟩
    exact ⟨u.objects.length, rfl, hu.later.objects.length_le, hlt⟩

theorem Blind.newInstance (hm : b.Blind s m) (h : b.Became s p D C) (hd : b.Incurious s D) :
    b.Unaided s e (fun e x => ∃ o, x = objectValue o ∧ b.Made e o)
      (m.newInstance (.made s.cls) [] []) := by
  refine .world fun u E hu he => ⟨fun log => ?_, ?_⟩
  · rw [(h.toHelped.later hu.later).find?_reserved log _ (by decide +kernel)]
    simp only [reached_stripped]
    rfl
  · split
    · rename_i n a hf
      rw [hu.find? h.toHelped] at hf
      have fails : b.Unaided s (u.stage E) (fun _ _ => False)
          (m.use (u.reached (.made n) (.made s.cls) none a) [World.classValue (.made s.cls)] []) := by
        rcases hd.makes n a hf with ⟨x, rfl, hx⟩ | ⟨k, name, rfl⟩
        · exact hm.uncalled hx
        · exact hm.uncalled ⟨0, trivial⟩
      exact fails.mono fun _ _ _ => False.elim
    · exact .newObject h

theorem Blind.prepare (hm : b.Blind s m) (h : b.Became s p D C) (hd : b.Incurious s D)
    (ho : b.Made e o) : b.Unaided s e (fun _ _ => True) (m.prepare (objectValue o) [] []) := by
  refine .world fun u E hu he => ?_
  have ho := ho.mono he
  refine ⟨fun log => ?_, ?_⟩
  · rw [hu.special?_stripped h.toHelped ho (by decide +kernel)]
    split
    · rfl
    · rfl
  rcases hu.special?_cases h.toHelped ho "__init__" with hs | ⟨n, a, ha, hs⟩
  · rw [hs]
    exact .returns fun _ _ => trivial
  · rw [hs]
    refine (hm.use ho (hd.prepares n a ha) (List.forall_mem_nil _) (List.forall_mem_nil _) u _ _).bind
      fun e₁ x _ _ => ?_
    cases x with
    | null => exact .returns fun _ _ => trivial
    | _ => exact .fails _

theorem Blind.makes (h : b.Became s p D C) (hd : b.Incurious s D) (k : Nat)
    (hk : b.Blind s (Machine.nested k)) :
    b.Unaided s e (fun e x => ∃ o, x = objectValue o ∧ b.Made e o)
      ((Machine.nested (k + 1)).invoke (World.classValue (.made s.cls)) [] []) := by
  refine (hk.newInstance h hd).bind fun e₁ x h₁ hx => ?_
  obtain ⟨o, rfl, ho⟩ := hx
  refine .world fun u E hu he => ?_
  have hc := hu.classOf (ho.mono he)
  have hc' (log : List Record) : (u.stripped s log).classOf (objectValue o) = .made s.cls := hc
  have stands (log : List Record) : (u.stripped s log).lineage (.made s.cls) = u.lineage (.made s.cls) :=
    lineage_stripped _
  refine ⟨fun log => ?_, ?_⟩
  · rw [hc, hc', stands]
  · rw [hc, if_pos (by simp [World.lineage])]
    exact (hk.prepare h hd (ho.mono he)).bind fun _ _ he' _ =>
      .returns fun _ he'' => ⟨o, rfl, ho.mono (he.trans (he'.trans he''))⟩

end World

end Toolwright
