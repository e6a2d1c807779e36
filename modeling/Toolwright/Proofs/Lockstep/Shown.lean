import Toolwright.Host.Operation
import Toolwright.Proofs.Lockstep.Lookup
import Toolwright.Proofs.Lockstep.Reference
import Toolwright.Proofs.Renaming.Document

/-!
# Texts in linked worlds

A machine is faithful to a link if what it runs for the blocks of one side it runs alike for those
of the other one. Each level of a computation is shown to be faithful from the level below.

What is printed of a value, whether it counts as true, its hash and its sum with another one are
alike on both sides, and so is the text under which a result is published.
-/

namespace Toolwright

set_option autoImplicit false

/-! ## Faithful machines -/

namespace Link

variable (L : Link)

/-- The contexts that a block of both sides runs in, and what it may ask there. -/
inductive Context (e : Extent) : Value → Value → (Use → Prop) → Prop
  | own (hp : L.present) : Context e L.left.context L.right.context L.Permits
  | null : Context e .null .null AsksAlone
  | apart {x : Value} (hx : x.Within e) (h : ∃ r, L.exposed r) :
    Context e x (x.rename L.ρ) L.PermitsApart

theorem Context.mono {L : Link} {e e' : Extent} (he : e.Below e') {c c' : Value} {p : Use → Prop}
    (h : L.Context e c c' p) : L.Context e' c c' p := by
  cases h with
  | own hp => exact .own hp
  | null => exact .null
  | apart hx h => exact .apart (hx.mono he) h

/-- What both sides reach under the name of an attribute. -/
inductive Reached (e : Extent) : Access → Access → Prop
  | value {x : Value} (hx : x.Within e) : Reached e (.value x) (.value (x.rename L.ρ))
  | bound {r : Nat} (hr : L.helper r) :
    Reached e (.function (.forwards (routineValue r)) (some L.left.context))
      (.function (.forwards (routineValue (L.ρ.routine r))) (some L.right.context))
  | apart {r : Nat} (hr : L.helper r) (hx : L.exposed r) :
    Reached e (.function (.forwards (routineValue r)) none)
      (.function (.forwards (routineValue (L.ρ.routine r))) none)

theorem Reached.mono {L : Link} {e e' : Extent} (he : e.Below e') {a a' : Access}
    (h : L.Reached e a a') : L.Reached e' a a' := by
  cases h with
  | value hx => exact .value (hx.mono he)
  | bound hr => exact .bound hr
  | apart hr hx => exact .apart hr hx

/-- The arguments of a call, in an extent. -/
structure Args (e : Extent) (args : List Value) (named : Named) : Prop where
  args : ∀ x ∈ args, x.Within e
  named : Named.Within e named

theorem Args.none (e : Extent) : Args e [] [] := ⟨by simp, by simp [Named.Within]⟩

structure Faithful (m : Machine) : Prop where
  eval : ∀ {e : Extent} {c c' : Value} {p : Use → Prop} {vars : Named} {node : Node},
    L.Context e c c' p → Named.Within e vars → (∀ u ∈ node.uses, p u) →
    L.Agree e L.Renamed (m.eval ⟨c, vars⟩ node) (m.eval ⟨c', Named.rename L.ρ vars⟩ node)
  /-- A block with a context. -/
  body : ∀ {e : Extent} {c c' : Value} {p : Use → Prop} {b : Block} {args : List Value}
    {named : Named}, L.Context e c c' p → (∀ u ∈ b.uses, p u) → Args e args named →
    L.Agree e L.Renamed (m.call (.body .ofInstance (.block b)) (c :: args) named)
      (m.call (.body .ofInstance (.block b)) (c' :: args.map (Value.rename L.ρ))
        (Named.rename L.ρ named))
  bodyOfClass : ∀ {e : Extent} {b : Block} {args : List Value} {named : Named},
    (∀ u ∈ b.uses, AsksAlone u) → Args e args named →
    L.Agree e L.Renamed (m.call (.body .ofClass (.block b)) args named)
      (m.call (.body .ofClass (.block b)) (args.map (Value.rename L.ρ)) (Named.rename L.ρ named))
  /-- A helper called through the context. -/
  helped : ∀ {e : Extent} {r : Nat} {args : List Value} {named : Named}, L.helper r →
    Args e args named →
    L.Agree e L.Renamed
      (m.call (.forwards (routineValue r)) (L.left.context :: args) named)
      (m.call (.forwards (routineValue (L.ρ.routine r)))
        (L.right.context :: args.map (Value.rename L.ρ)) (Named.rename L.ρ named))
  /-- A helper called through the class. -/
  helpedApart : ∀ {e : Extent} {r : Nat} {args : List Value} {named : Named}, L.helper r →
    L.exposed r → Args e args named →
    L.Agree e L.Renamed (m.call (.forwards (routineValue r)) args named)
      (m.call (.forwards (routineValue (L.ρ.routine r))) (args.map (Value.rename L.ρ))
        (Named.rename L.ρ named))
  /-- The function of a helper, or of the block that is executed. -/
  run : ∀ {e : Extent} {r : Nat} {args : List Value} {named : Named}, L.helper r →
    Args e args named →
    L.Agree e L.Renamed (m.invoke (routineValue r) (L.left.context :: args) named)
      (m.invoke (routineValue (L.ρ.routine r)) (L.right.context :: args.map (Value.rename L.ρ))
        (Named.rename L.ρ named))
  runApart : ∀ {e : Extent} {r : Nat} {x : Value} {args : List Value} {named : Named},
    L.helper r → L.exposed r → Args e (x :: args) named →
    L.Agree e L.Renamed (m.invoke (routineValue r) (x :: args) named)
      (m.invoke (routineValue (L.ρ.routine r)) ((x :: args).map (Value.rename L.ρ))
        (Named.rename L.ρ named))
  invoke : ∀ {e : Extent} {x : Value} {args : List Value} {named : Named}, x.Within e →
    Args e args named →
    L.Agree e L.Renamed (m.invoke x args named)
      (m.invoke (x.rename L.ρ) (args.map (Value.rename L.ρ)) (Named.rename L.ρ named))
  /-- A method of both classes that gives the same. -/
  tells : ∀ {e : Extent} {f g : Function} {x : Value}, L.left.world.Tells L.left.cls f x →
    L.right.world.Tells L.right.cls g x → x.Closed →
    L.Agree e L.Renamed (m.call f [World.classValue (.made L.left.cls)] [])
      (m.call g [World.classValue (.made L.right.cls)] [])
  /-- Both contexts have a text. -/
  shows : ∀ {e : Extent}, L.present → L.Agree e (fun _ a b => ∃ s s', a = .str s ∧ b = .str s')
    (m.call (.operation .object "__str__") [L.left.context] [])
    (m.call (.operation .object "__str__") [L.right.context] [])

namespace Faithful

variable {L : Link} {m : Machine} {e : Extent}

theorem use (hm : L.Faithful m) {a a' : Access} (h : L.Reached e a a') {args : List Value}
    {named : Named} (ha : Args e args named) :
    L.Agree e L.Renamed (m.use a args named)
      (m.use a' (args.map (Value.rename L.ρ)) (Named.rename L.ρ named)) := by
  cases h with
  | value hx => exact hm.invoke hx ha
  | bound hr => exact hm.helped hr ha
  | apart hr hx => exact hm.helpedApart hr hx ha

end Faithful

theorem Linked.reached_shared {L : Link} {w v : World} (h : L.Linked w v) {r : Nat}
    (hr : L.shared r) :
    L.Reached (L.extent w) (.value (routineValue r)) (.value (routineValue (L.ρ.routine r))) :=
  .value (h.shared_within hr)

theorem Linked.special?_context {L : Link} {w v : World} (h : L.Linked w v) (hp : L.present)
    {name : String}    (hn : name ∈ specials) :
    (w.special? L.left.context name = none ∧ v.special? L.right.context name = none) ∨
      ∃ a a', w.special? L.left.context name = some a ∧
        v.special? L.right.context name = some a' ∧ L.Reached (L.extent w) a a' := by
  have hl := h.left_find? name
  have hr := h.right_find? name
  rw [← h.left_classOf hp] at hl
  rw [← h.right_classOf hp] at hr
  rcases (h.sound.contexts hp).special name hn with hf | ⟨hb, hb'⟩
  · rw [← hl, ← hr] at hf
    unfold World.special?
    dsimp only
    generalize w.find? (w.classOf L.left.context) name = x at hf
    generalize v.find? (v.classOf L.right.context) name = y at hf
    cases hf with
    | absent => exact .inl ⟨rfl, rfl⟩
    | ofInstance hr => exact .inr ⟨_, _, rfl, rfl, .bound hr⟩
    | ofClass hr => exact .inr ⟨_, _, rfl, rfl, h.reached_shared hr⟩
  · left
    rw [← hl] at hb
    rw [← hr] at hb'
    exact ⟨World.special?_eq_none (.inr hb), World.special?_eq_none (.inr hb')⟩

end Link

/-! ## Texts in linked worlds -/

namespace Link

variable {L : Link} {m : Machine} {e : Extent}

/-! ## Printing -/

theorem printedContext_agree (hm : L.Faithful m) (hp : L.present) :
    L.Agree e (fun _ _ _ => True) (m.printedApart L.left.context)
      (m.printedApart L.right.context) := by
  unfold Machine.printedApart
  apply Agree.bind (hm.shows hp)
  rintro e₁ _ _ _ ⟨s, s', rfl, rfl⟩
  exact Agree.pure fun _ _ => trivial

theorem printedHandle_agree (hm : L.Faithful m) {r : Nat} (hr : e.routine r) :
    L.Agree e Equal (m.printedHandle r) (m.printedHandle (L.ρ.routine r)) := by
  unfold Machine.printedHandle
  apply Agree.world
  intro w v hl he
  cases hl.routine (he.routine r hr) with
  | shared b hw hv _ =>
    have hcw : (w.classOf (.opaqueRef (.routine r)) == .builtIn .operation) = false := by
      simp [World.classOf, hw]
    have hcv : (v.classOf (.opaqueRef (.routine (L.ρ.routine r))) == .builtIn .operation) =
        false := by
      simp [World.classOf, hv]
    simp only [hw, hv, hcw, hcv, World.handleText]
    exact Agree.pure (fun _ _ => rfl) w v hl (Extent.Below.refl _)
  | bound h hh hw hv =>
    have hcw : (w.classOf (.opaqueRef (.routine r)) == .builtIn .operation) = false := by
      simp [World.classOf, hw]
    have hcv : (v.classOf (.opaqueRef (.routine (L.ρ.routine r))) == .builtIn .operation) =
        false := by
      simp [World.classOf, hv]
    simp only [hw, hv, hcw, hcv, World.handleText, World.functionPath?]
    -- What the context tells of itself does not stand in the text.
    refine Agree.bind (printedContext_agree hm (hl.sound.helper_present h hh)) (fun e₁ _ _ _ _ => ?_) w v hl
      (Extent.Below.refl _)
    exact Agree.pure fun _ _ => rfl

theorem printedOpaque_agree (hm : L.Faithful m) {o : Opaque} (ho : o.Within e.flat) :
    L.Agree e Equal (m.printedOpaque o) (m.printedOpaque (o.rename L.ρ)) := by
  unfold Machine.printedOpaque
  apply Agree.world
  intro w v hl he
  cases o with
  | routine r => exact printedHandle_agree hm (e := e) ho w v hl he
  | token | mute | plain => exact Agree.pure (fun _ _ => rfl) w v hl he
  | place p =>
    cases p with
    | cell n => exact ho.elim
    | attributes => exact ho.elim
    | shown => exact ho.elim
  | cls => exact ho.elim
  | object => exact ho.elim
  | view => exact ho.elim
  | cursor => exact ho.elim

mutual

theorem settled_agree (hm : L.Faithful m) {e : Extent} {x : Value} (hx : x.Within e.flat) :
    L.Agree e L.Renamed (m.settled x) (m.settled (x.rename L.ρ)) := by
  cases x with
  | list xs | tuple xs | set xs | frozenset xs =>
    simp only [Value.rename, Machine.settled]
    apply Agree.bind (settledItems_agree hm hx)
    rintro e₁ ys _ _ ⟨hys, rfl⟩
    apply Agree.pure
    intro e₂ he
    refine ⟨Value.withinItems_iff.mpr fun y hy => (hys y hy).mono he, ?_⟩
    rw [Value.rename, Value.renameItems_eq]
  | dict rows | mapping rows =>
    simp only [Value.rename, Machine.settled]
    apply Agree.bind (settledRows_agree hm hx)
    rintro e₁ ys _ _ ⟨hys, rfl⟩
    apply Agree.pure
    intro e₂ he
    refine ⟨Value.withinRows_iff.mpr fun y hy => ⟨(hys y hy).1.mono he, (hys y hy).2.mono he⟩, ?_⟩
    rw [Value.rename, Value.renameRows_eq]
  | opaqueRef o =>
    simp only [Value.rename, Machine.settled]
    apply Agree.bind (printedOpaque_agree hm hx)
    rintro e₁ s _ _ rfl
    exact Agree.pure fun _ _ => ⟨trivial, rfl⟩
  | record => exact hx.elim
  | _ => exact Agree.pure fun _ he => ⟨Value.Within.mono ((Extent.flat_below e).trans he) hx, rfl⟩

theorem settledItems_agree (hm : L.Faithful m) {e : Extent} {xs : List Value}
    (hx : Value.WithinItems e.flat xs) :
    L.Agree e L.RenamedItems (m.settledItems xs) (m.settledItems (Value.renameItems L.ρ xs)) := by
  cases xs with
  | nil => exact Agree.pure fun _ _ => ⟨by simp, rfl⟩
  | cons x xs =>
    simp only [Value.renameItems, Machine.settledItems]
    apply Agree.bind (settled_agree hm hx.1)
    rintro e₁ y _ h₁ ⟨hy, rfl⟩
    apply Agree.bind (settledItems_agree hm (hx.2.mono (Extent.flat_mono h₁)))
    rintro e₂ ys _ h₂ ⟨hys, rfl⟩
    apply Agree.pure
    intro e₃ h₃
    refine ⟨?_, rfl⟩
    intro z hz
    rcases List.mem_cons.mp hz with rfl | hz
    · exact hy.mono (h₂.trans h₃)
    · exact (hys z hz).mono h₃

theorem settledRows_agree (hm : L.Faithful m) {e : Extent} {rows : List (Value × Value)}
    (hx : Value.WithinRows e.flat rows) :
    L.Agree e L.RenamedRows (m.settledRows rows) (m.settledRows (Value.renameRows L.ρ rows)) := by
  cases rows with
  | nil => exact Agree.pure fun _ _ => ⟨by simp [Value.RowsWithin], rfl⟩
  | cons row rows =>
    obtain ⟨k, x⟩ := row
    simp only [Value.renameRows, Machine.settledRows]
    apply Agree.bind (settled_agree hm hx.1.1)
    rintro e₁ key _ h₁ ⟨hkey, rfl⟩
    apply Agree.bind (settled_agree hm (hx.1.2.mono (Extent.flat_mono h₁)))
    rintro e₂ y _ h₂ ⟨hy, rfl⟩
    apply Agree.bind (settledRows_agree hm (hx.2.mono (Extent.flat_mono (h₁.trans h₂))))
    rintro e₃ ys _ h₃ ⟨hys, rfl⟩
    apply Agree.pure
    intro e₄ h₄
    refine ⟨?_, rfl⟩
    intro z hz
    rcases List.mem_cons.mp hz with rfl | hz
    · exact ⟨hkey.mono (h₂.trans (h₃.trans h₄)), hy.mono (h₃.trans h₄)⟩
    · exact ⟨(hys z hz).1.mono h₄, (hys z hz).2.mono h₄⟩

end

theorem lift_printed_agree (x : Value) :
    L.Agree e Equal (Run.lift x.printed) (Run.lift (x.rename L.ρ).printed) := by
  rw [Value.printed_rename]
  cases x.printed with
  | error f => exact Agree.lift_error f
  | ok s => exact Agree.lift_ok fun _ _ => rfl

/-- The value of the right run is that of the left one, renamed, and there are no cells in it. -/
def Flat (L : Link) (e : Extent) (x y : Value) : Prop := x.Within e.flat ∧ y = x.rename L.ρ

theorem lift_twins {x y : Except Fault Value} (h : World.Twins L.ρ e x y) :
    L.Agree e L.Flat (Run.lift x) (Run.lift y) := by
  obtain ⟨rfl, hw⟩ := h
  apply Agree.lift_map
  intro a ha e' he
  exact ⟨(hw a ha).mono (Extent.flat_mono he), rfl⟩

theorem printed_agree (hm : L.Faithful m) {x : Value} (hx : x.Within e) :
    L.Agree e Equal (m.printed x) (m.printed (x.rename L.ρ)) := by
  unfold Machine.printed
  apply Agree.world
  intro w v hl he
  refine Agree.bind (lift_twins (outlined_rename hl (hx.mono he))) ?_ w v hl (Extent.Below.refl _)
  rintro e₁ y _ _ ⟨hy, rfl⟩
  apply Agree.bind (settled_agree hm hy)
  rintro e₂ z _ _ ⟨_, rfl⟩
  exact lift_printed_agree z

theorem unproxied_agree (hm : L.Faithful m) {x : Value} (hx : x.Within e) :
    L.Agree e Equal
      (do match (← Run.world).proxied? x with
        | some held => m.printed held
        | none => m.printed x)
      (do match (← Run.world).proxied? (x.rename L.ρ) with
        | some held => m.printed held
        | none => m.printed (x.rename L.ρ)) := by
  apply Agree.world
  intro w v hl he
  have hp := Linked.proxied?_within (w := w) (v := v) (hx.mono he)
  rw [hp.1, hp.2]
  exact printed_agree hm hx w v hl he

theorem text_agree (hm : L.Faithful m) {x : Value} (hx : x.Within e) :
    L.Agree e Equal (m.text x) (m.text (x.rename L.ρ)) := by
  have plain := unproxied_agree hm hx
  unfold Machine.text
  apply Agree.world
  intro w v hl he
  have hs := hl.special?_within (hx.mono he) "__str__"
  rw [hs.1, hs.2]
  cases x with
  | str s => exact Agree.pure (fun _ _ => rfl) w v hl he
  | opaqueRef o =>
    cases o with
    | token => exact Agree.pure (fun _ _ => rfl) w v hl he
    | mute => exact Agree.throw (.same _) w v hl he
    | _ => exact plain w v hl he
  | _ => exact plain w v hl he

/-! ## Truth, hashes and equality -/

theorem look_agree {x : Value} (hx : x.Within e) :
    L.Agree e L.Renamed (Run.look x) (Run.look (x.rename L.ρ)) := by
  unfold Run.look
  apply Agree.world
  intro w v hl he
  rw [hl.followed_rename (hx.mono he)]
  have hw := hl.followed_within (hx.mono he)
  exact Agree.pure (fun _ he => ⟨hw.mono he, rfl⟩) w v hl (Extent.Below.refl _)

theorem truthy_agree {x : Value} (hx : x.Within e) :
    L.Agree e Equal (m.truthy x) (m.truthy (x.rename L.ρ)) := by
  unfold Machine.truthy
  apply Agree.world
  intro w v hl he
  have hb := hl.special?_within (hx.mono he) "__bool__"
  have hn := hl.special?_within (hx.mono he) "__len__"
  have hf := hl.followed_rename (hx.mono he)
  have plain : L.Agree e Equal (pure (w.followed x).truthy)
      (pure (v.followed (x.rename L.ρ)).truthy) := by
    apply Agree.pure
    intro _ _
    rw [hf, Value.truthy_rename]
    rfl
  simp only [hb.1, hb.2, hn.1, hn.2]
  cases x with
  | opaqueRef o =>
    cases o with
    | view => exact (hx.mono he).elim
    | _ => exact plain w v hl he
  | _ => exact plain w v hl he

theorem hashOf_agree {x : Value} (hx : x.Within e) :
    L.Agree e Equal (m.hashOf x) (m.hashOf (x.rename L.ρ)) := by
  unfold Machine.hashOf
  apply Agree.world
  intro w v hl he
  have hs := hl.special?_within (hx.mono he) "__hash__"
  rw [hs.1, hs.2]
  refine Agree.world ?_ w v hl he
  intro w v hl he
  rw [hashes_rename w v L.ρ hx, Value.hash?_rename]
  by_cases h : w.hashes x = true
  · simp only [h, if_true]
    exact Agree.pure (fun _ _ => rfl) w v hl he
  · simp only [h]
    exact Agree.throw (.same _) w v hl he

/-- The classes of two values have nothing to say of them. -/
theorem consult_agree {x y : Value} (hx : x.Within e) (hy : y.Within e)
    (name reflected reflected' : String) :
    L.Agree e (fun _ a b => a = none ∧ b = none) (m.consult x y name reflected)
      (m.consult (x.rename L.ρ) (y.rename L.ρ) name reflected') := by
  unfold Machine.consult
  apply Agree.world
  intro w v hl he
  have hsx := (hl.special?_within (hx.mono he) name)
  have hsy := (hl.special?_within (hy.mono he) reflected).1
  have hsy' := (hl.special?_within (hy.mono he) reflected').2
  simp only [hsx.1, hsx.2, hsy, hsy', Option.map_none, Option.toList_none, List.append_nil,
    ite_self]
  exact Agree.pure (fun _ _ => ⟨rfl, rfl⟩) w v hl he

theorem saysEqual_agree {x y : Value} (hx : x.Within e) (hy : y.Within e) :
    L.Agree e Equal (m.saysEqual x y) (m.saysEqual (x.rename L.ρ) (y.rename L.ρ)) := by
  unfold Machine.saysEqual
  apply Agree.bind (consult_agree hx hy _ _ _)
  rintro e₁ _ _ _ ⟨rfl, rfl⟩
  exact Agree.pure fun _ _ => rfl

/-! ## Sums -/

/-- A result without the mark; a tuple is looked into. -/
def Unmarked (mark : Nat) : Value → Prop
  | .tuple xs => ∀ y ∈ xs, y ≠ .float (.nan mark)
  | x => x ≠ .float (.nan mark)

theorem give_unmarked {mark : Nat} {x : Value} (h : Unmarked mark x) :
    Machine.give mark x = Run.share x := by
  cases x with
  | tuple xs =>
    simp only [Machine.give]
    rw [if_neg]
    intro hany
    obtain ⟨y, hy, hm⟩ := List.any_eq_true.mp hany
    have := h y hy
    cases y with
    | float z => cases z <;> simp_all
    | _ => simp at hm
  | float z =>
    cases z with
    | nan n =>
      have hn : (n == mark) = false := by
        rw [beq_eq_false_iff_ne]
        rintro rfl
        exact h rfl
      simp only [Machine.give, hn]
      rfl
    | _ => rfl
  | _ => rfl

theorem unmarked_within {mark : Nat} {x : Value} (h : x.Within (e.upTo mark)) :
    Unmarked mark x := by
  have part (y : Value) (hy : y.Within (e.upTo mark)) : y ≠ .float (.nan mark) := by
    rintro rfl
    exact absurd hy (Nat.lt_irrefl mark)
  cases x with
  | tuple xs => exact fun y hy => part y (Value.withinItems_iff.mp h y hy)
  | _ => exact part _ h

theorem Unmarked.rename {mark : Nat} {x : Value} (h : Unmarked mark x) (ρ : Renaming) :
    Unmarked (ρ.mark mark) (x.rename ρ) := by
  have part (y : Value) (hy : y ≠ .float (.nan mark)) :
      y.rename ρ ≠ .float (.nan (ρ.mark mark)) := by
    intro he
    cases y <;> simp only [Value.rename, Value.float.injEq, reduceCtorEq] at he
    rename_i z
    cases z <;> simp only [Binary64.rename, Binary64.nan.injEq, reduceCtorEq] at he
    exact hy (by rw [ρ.mark_injective he])
  cases x with
  | tuple xs =>
    intro y hy
    rw [Value.renameItems_eq] at hy
    obtain ⟨z, hz, rfl⟩ := List.mem_map.mp hy
    exact part z (h z hz)
  | _ => exact part _ h

/-- A result that no mark was spent for is shared; a new mark is spent on both sides. -/
theorem give_agree {mark : Nat} {x : Value} (hs : ∀ j, L.ρ.mark (mark + j) = L.ρ.mark mark + j)
    (hx : x.Within (e.upTo mark) ∨ x = .float (.nan mark)) (he : mark ≤ e.marks) :
    L.Agree e L.Renamed (Machine.give mark x) (Machine.give (L.ρ.mark mark) (x.rename L.ρ)) := by
  rcases hx with hx | rfl
  · rw [give_unmarked (unmarked_within hx), give_unmarked ((unmarked_within hx).rename L.ρ)]
    have below : (e.upTo mark).Below e := ⟨fun _ h => h, fun _ h => h, he⟩
    exact share_agree x (hx.mono below)
  · intro w v hl hw
    have hmark : (mark == mark) = true := beq_self_eq_true mark
    have hmark' : (L.ρ.mark mark == L.ρ.mark mark) = true := beq_self_eq_true _
    simp only [Value.rename, Binary64.rename, Machine.give, hmark, hmark', if_true]
    have hle := Nat.le_trans he hw.marks
    have hle' : mark ≤ w.marks := hle
    have hv : v.marks = L.ρ.mark mark + (w.marks - mark) := by
      rw [← hs, Nat.add_sub_of_le hle']
      exact (hl.mark_shift 0).symm
    refine .ok (w := { w with marks := max w.marks (mark + 1) })
      (v := { v with marks := max v.marks (L.ρ.mark mark + 1) })
      (hl.marks (Nat.le_max_left _ _) (Nat.le_max_left _ _) ?_)
      (extent_below (Nat.le_refl _) (Nat.le_refl _) (Nat.le_max_left _ _)) ⟨?_, rfl⟩
    · intro j
      have h := hs (max w.marks (mark + 1) - mark + j)
      have hmax : mark ≤ max w.marks (mark + 1) := Nat.le_trans hle' (Nat.le_max_left _ _)
      rw [← Nat.add_assoc, Nat.add_sub_of_le hmax] at h
      rw [h, hv]
      omega
    · show mark < max w.marks (mark + 1)
      omega

theorem plainSum_agree {x y : Value} (hx : x.Within e) (hy : y.Within e) :
    L.Agree e L.Renamed (Machine.plainSum x y)
      (Machine.plainSum (x.rename L.ρ) (y.rename L.ρ)) := by
  unfold Machine.plainSum
  apply Agree.world
  intro w v hl he
  have hmark : L.ρ.mark w.marks = v.marks := hl.mark_shift 0
  have hs (j : Nat) : L.ρ.mark (w.marks + j) = L.ρ.mark w.marks + j := by
    rw [hmark]
    exact hl.mark_shift j
  have hx := hx.mono he
  have hy := hy.mono he
  unfold Alike
  simp only [Run.exec_bind, Run.exec_look, hl.followed_rename hx, hl.followed_rename hy, ← hmark,
    Value.add_rename]
  -- Both parts are looked at before the marks move, so they lie below the mark that is given.
  cases hsum : Value.add w.marks (w.followed x) (w.followed y) with
  | error f => exact .error hl (Extent.Below.refl _) (.same f)
  | ok sum =>
    have hw := Value.within_add (hl.followed_within hx) (hl.followed_within hy) hsum
    exact give_agree (e := L.extent w) hs hw (Nat.le_refl _) w v hl (Extent.Below.refl _)

theorem sum_agree {x y : Value} (hx : x.Within e) (hy : y.Within e) :
    L.Agree e L.Renamed (m.sum x y) (m.sum (x.rename L.ρ) (y.rename L.ρ)) := by
  unfold Machine.sum
  apply Agree.world
  intro w v hl he
  refine Agree.bind (consult_agree hx hy _ _ _) ?_ w v hl he
  rintro e₁ _ _ h₁ ⟨rfl, rfl⟩
  have hsx := hl.special?_within (hx.mono he) "__add__"
  have hsy (name : String) := hl.special?_within (hy.mono he) name
  simp only [hsx.1, hsx.2, (hsy _).1, (hsy _).2]
  exact plainSum_agree (hx.mono h₁) (hy.mono h₁)

end Link

end Toolwright
