import Toolwright.Proofs.Lockstep.Evaluation
import Toolwright.Session.Basic

/-!
# Calls in linked worlds

A block is called alike on both sides, and so is a helper, whether through the context, through the
class or as a value. So every level of a computation is faithful to the link.
-/

namespace Toolwright

set_option autoImplicit false

namespace Link

variable {L : Link} {m : Machine} {e : Extent} {c c' : Value} {p : Use → Prop}
  {args : List Value} {named : Named}

/-! ## Blocks -/

theorem bindBlock_agree (b : Block) (ha : Args e args named) :
    L.Agree e L.RenamedNamed (Run.build (b.bind args named))
      (Run.build (b.bind (args.map (Value.rename L.ρ)) (Named.rename L.ρ named))) := by
  have below : e.Below (e.upTo e.marks) := ⟨fun _ h => h, fun _ h => h, Nat.le_refl _⟩
  apply build_agree (Block.bind_agree (ρ := L.ρ) (e := e) b args named e.marks
    (fun x hx => (ha.args x hx).mono below) (ha.named.mono below))
  rintro e₁ vars _ h₁ ⟨hv, rfl⟩
  exact ⟨hv.mono (Extent.upTo_below h₁), rfl⟩

/-- A block is called alike in two contexts in which its body is evaluated alike. -/
theorem callBlock_evaluates {b : Block} (h : L.Evaluates m e c c' p) (hu : ∀ u ∈ b.uses, p u)
    (ha : Args e args named) :
    L.Agree e L.Renamed (m.callBlock b c args named)
      (m.callBlock b c' (args.map (Value.rename L.ρ)) (Named.rename L.ρ named)) := by
  unfold Machine.callBlock
  apply Agree.bind (bindBlock_agree b ha)
  rintro e₁ vars _ h₁ ⟨hv, rfl⟩
  have shared : L.Agree e₁ L.RenamedNamed
      (vars.mapM fun row => do return (row.1, ← Run.share row.2))
      ((Named.rename L.ρ vars).mapM fun row => do return (row.1, ← Run.share row.2)) := by
    unfold Named.rename
    rw [List.mapM_map]
    exact rows_agree (g := fun x => Run.share (x.rename L.ρ)) vars
      fun row hr e' he => share_agree row.2 ((hv row hr).mono he)
  apply Agree.bind shared
  rintro e₂ vars _ h₂ ⟨hv, rfl⟩
  exact h (h₁.trans h₂) hv hu

theorem callBlock_agree {b : Block} (hm : L.Faithful m) (hc : L.Context e c c' p)
    (hu : ∀ u ∈ b.uses, p u) (ha : Args e args named) :
    L.Agree e L.Renamed (m.callBlock b c args named)
      (m.callBlock b c' (args.map (Value.rename L.ρ)) (Named.rename L.ρ named)) :=
  callBlock_evaluates (hm.evaluates hc) hu ha

theorem body_agree {b : Block} (hm : L.Faithful m) (hc : L.Context e c c' p)
    (hu : ∀ u ∈ b.uses, p u) (ha : Args e args named) :
    L.Agree e L.Renamed (m.callWith (.body .ofInstance (.block b)) (c :: args) named)
      (m.callWith (.body .ofInstance (.block b)) (c' :: args.map (Value.rename L.ρ))
        (Named.rename L.ρ named)) :=
  callBlock_agree hm hc hu ha

theorem bodyOfClass_agree {b : Block} (hm : L.Faithful m) (hu : ∀ u ∈ b.uses, AsksAlone u)
    (ha : Args e args named) :
    L.Agree e L.Renamed (m.callWith (.body .ofClass (.block b)) args named)
      (m.callWith (.body .ofClass (.block b)) (args.map (Value.rename L.ρ))
        (Named.rename L.ρ named)) :=
  callBlock_agree hm .null hu ha

/-! ## Helpers -/

theorem helped_agree (hm : L.Faithful m) {r : Nat} (hr : L.helper r) (ha : Args e args named) :
    L.Agree e L.Renamed
      (m.callWith (.forwards (routineValue r)) (L.left.context :: args) named)
      (m.callWith (.forwards (routineValue (L.ρ.routine r)))
        (L.right.context :: args.map (Value.rename L.ρ)) (Named.rename L.ρ named)) :=
  hm.run hr ha

theorem helpedApart_agree (hm : L.Faithful m) {r : Nat} (hr : L.helper r) (hx : L.exposed r)
    (ha : Args e args named) :
    L.Agree e L.Renamed (m.callWith (.forwards (routineValue r)) args named)
      (m.callWith (.forwards (routineValue (L.ρ.routine r))) (args.map (Value.rename L.ρ))
        (Named.rename L.ρ named)) := by
  cases args with
  | nil => exact Agree.throw (.same _)
  | cons x args => exact hm.runApart hr hx ha

/-! ## Functions as values -/

theorem run_agree (hm : L.Faithful m) {r : Nat} (hr : L.helper r) (ha : Args e args named) :
    L.Agree e L.Renamed (m.invokeWith (routineValue r) (L.left.context :: args) named)
      (m.invokeWith (routineValue (L.ρ.routine r)) (L.right.context :: args.map (Value.rename L.ρ))
        (Named.rename L.ρ named)) := by
  apply Agree.world
  intro w v hl he
  obtain ⟨b, hw, hv, hu, _⟩ := hl.sound.helper r hr
  rw [hl.handle_left hw, hl.handle_right hv]
  exact hm.body (.own (hl.sound.helper_present r hr)) hu ha w v hl he

theorem runApart_agree (hm : L.Faithful m) {r : Nat} {x : Value} (hr : L.helper r)
    (hx : L.exposed r) (ha : Args e (x :: args) named) :
    L.Agree e L.Renamed (m.invokeWith (routineValue r) (x :: args) named)
      (m.invokeWith (routineValue (L.ρ.routine r)) ((x :: args).map (Value.rename L.ρ))
        (Named.rename L.ρ named)) := by
  apply Agree.world
  intro w v hl he
  obtain ⟨b, hw, hv, _, hu⟩ := hl.sound.helper r hr
  rw [hl.handle_left hw, hl.handle_right hv]
  exact hm.body (.apart (ha.args x List.mem_cons_self) ⟨r, hx⟩) (hu hx)
    ⟨fun y hy => ha.args y (List.mem_cons_of_mem _ hy), ha.named⟩ w v hl he

/-- A value that is no routine is called by what its class does for it, which is nothing here. -/
theorem invokeOther_agree (m : Machine) (args : List Value) (named : Named) {x : Value}
    (hx : x.Within e) :
    L.Agree e L.Renamed
      (do match (← Run.world).special? x "__call__" with
        | some a => m.use a args named
        | none => throw .mismatch)
      (do match (← Run.world).special? (x.rename L.ρ) "__call__" with
        | some a => m.use a (args.map (Value.rename L.ρ)) (Named.rename L.ρ named)
        | none => throw .mismatch) := by
  apply Agree.world
  intro w v hl he
  have hs := hl.special?_within (hx.mono he) "__call__"
  rw [hs.1, hs.2]
  exact .error hl (Extent.Below.refl _) (.same _)

theorem invokeWith_agree (hm : L.Faithful m) {x : Value} (hx : x.Within e)
    (ha : Args e args named) :
    L.Agree e L.Renamed (m.invokeWith x args named)
      (m.invokeWith (x.rename L.ρ) (args.map (Value.rename L.ρ)) (Named.rename L.ρ named)) := by
  unfold Machine.invokeWith
  cases x with
  | opaqueRef o =>
    cases o with
    | cls => exact hx.elim
    | routine r =>
      apply Agree.world
      intro w v hl he
      cases hl.routine (he.routine r hx) with
      | shared b hw hv hu =>
        rw [hw, hv]
        exact hm.bodyOfClass hu ha w v hl he
      | bound h hh hw hv =>
        rw [hw, hv]
        exact hm.helped hh ha w v hl he
    | _ => exact invokeOther_agree m args named hx
  | _ => exact invokeOther_agree m args named hx

/-! ## Texts of the contexts -/

theorem textFrom_agree (hm : L.Faithful m) {a a' : Access} (ha : L.Reached e a a') :
    L.Agree e Equal (m.textFrom a) (m.textFrom a') := by
  unfold Machine.textFrom
  apply Agree.bind (hm.use ha (Args.none e))
  rintro e₁ x _ _ ⟨_, rfl⟩
  cases x with
  | str s => exact Agree.pure fun _ _ => rfl
  | _ => exact Agree.throw (.same _)

/-- A context prints as its class says, or else with the name of its class. -/
theorem printedSelf_agree (hm : L.Faithful m) (hp : L.present) :
    L.Agree e (fun _ _ _ => True) (m.printedOpaque (.object L.left.self))
      (m.printedOpaque (.object L.right.self)) := by
  unfold Machine.printedOpaque
  apply Agree.world
  intro w v hl he
  dsimp only
  rcases hl.special?_context hp (show "__repr__" ∈ specials by decide) with
    ⟨h, h'⟩ | ⟨a, a', h, h', ha⟩
  · simp only [Side.context] at h h'
    rw [h, h']
    exact .ok hl (Extent.Below.refl _) trivial
  · simp only [Side.context] at h h'
    rw [h, h']
    exact (textFrom_agree hm ha).mono (fun _ _ _ _ _ => trivial) w v hl (Extent.Below.refl _)

theorem printedContextText_agree (hm : L.Faithful m) (hp : L.present) :
    L.Agree e (fun _ _ _ => True) (m.printed L.left.context) (m.printed L.right.context) := by
  unfold Machine.printed
  apply Agree.world
  intro w v hl he
  rw [outlined_left hl hp, outlined_right hl hp]
  have settled : L.Agree e (fun _ x y => ∃ s s', x = Machine.verbatim s ∧ y = Machine.verbatim s')
      (m.settled L.left.context) (m.settled L.right.context) := by
    simp only [Side.context, Machine.settled]
    apply Agree.bind (printedSelf_agree hm hp)
    rintro e₁ s s' _ _
    exact Agree.pure fun _ _ => ⟨s, s', rfl, rfl⟩
  refine Agree.bind settled ?_ w v hl he
  rintro e₁ _ _ _ ⟨s, s', rfl, rfl⟩
  exact Agree.lift_ok fun _ _ => trivial

theorem operate_str (m : Machine) (o : Nat) {w : World}
    (h : (w.lineage (w.classOf (.opaqueRef (.object o)))).contains (.builtIn .object) = true) :
    (m.operate .object "__str__" [.opaqueRef (.object o)] []).exec w =
      Run.exec (do return .str (← m.printed (.opaqueRef (.object o)))) w := by
  show Run.exec (if !(w.lineage (w.classOf (.opaqueRef (.object o)))).contains (.builtIn .object)
    then throw .mismatch else m.objectOperation "__str__" (.opaqueRef (.object o)) []) w = _
  rw [h]
  rfl

theorem shows_agree (hm : L.Faithful m) (hp : L.present) :
    L.Agree e (fun _ a b => ∃ s s', a = .str s ∧ b = .str s')
      (m.callWith (.operation .object "__str__") [L.left.context] [])
      (m.callWith (.operation .object "__str__") [L.right.context] []) := by
  intro w v hl he
  have hw : (w.lineage (w.classOf L.left.context)).contains (.builtIn .object) = true := by
    rw [hl.left_classOf hp, World.lineage_congr hl.left.classes]
    exact List.elem_eq_true_of_mem (hl.sound.contexts hp).left_above
  have hv : (v.lineage (v.classOf L.right.context)).contains (.builtIn .object) = true := by
    rw [hl.right_classOf hp, World.lineage_congr hl.right.classes]
    exact List.elem_eq_true_of_mem (hl.sound.contexts hp).right_above
  unfold Alike
  show L.Ends _ _ (Run.exec (m.operate .object "__str__" [L.left.context] []) w)
    (Run.exec (m.operate .object "__str__" [L.right.context] []) v)
  rw [Side.context, operate_str m _ hw, Side.context, operate_str m _ hv]
  refine Agree.bind (printedContextText_agree hm hp) (fun e₁ s s' _ _ => ?_) w v hl he
  exact Agree.pure fun _ _ => ⟨s, s', rfl, rfl⟩

/-! ## Levels -/

theorem callTells_agree (m : Machine) {f g : Function} {x : Value}
    (ht : L.left.world.Tells L.left.cls f x) (ht' : L.right.world.Tells L.right.cls g x)
    (hx : x.Closed) :
    L.Agree e L.Renamed (m.callWith f [World.classValue (.made L.left.cls)] [])
      (m.callWith g [World.classValue (.made L.right.cls)] []) := by
  intro w v hl _
  unfold Alike
  rw [ht m w hl.left.classes, ht' m v hl.right.classes]
  exact .ok hl (Extent.Below.refl _) ⟨hx.within _, (hx.rename_eq L.ρ).symm⟩

theorem faithful_nested (L : Link) (k : Nat) : L.Faithful (Machine.nested k) := by
  induction k with
  | zero =>
    have deep {Q : Extent → Value → Value → Prop} {e : Extent} :
        L.Agree e Q (throw .tooDeep) (throw .tooDeep) := Agree.throw (.same _)
    exact ⟨fun _ _ _ => deep, fun _ _ _ => deep, fun _ _ => deep, fun _ _ => deep,
      fun _ _ _ => deep, fun _ _ => deep, fun _ _ _ => deep, fun _ _ => deep,
      fun _ _ _ => deep, fun _ => deep⟩
  | succ k hm =>
    exact {
      eval := fun hc hv hu => evalWith_agree hm hc hv hu
      body := body_agree hm
      bodyOfClass := bodyOfClass_agree hm
      helped := helped_agree hm
      helpedApart := helpedApart_agree hm
      run := run_agree hm
      runApart := runApart_agree hm
      invoke := invokeWith_agree hm
      tells := callTells_agree _
      shows := shows_agree hm }

end Link

end Toolwright
