import Toolwright.Block.Evaluation
import Toolwright.Proofs.Lockstep.Shown

/-!
# Attributes in linked worlds

What is reached through the contexts of both runs, and through their classes, is alike; so is what
is set on them. A block that is called through the class has any value as its context: there is
nothing to be found but what was set on that value.
-/

namespace Toolwright

set_option autoImplicit false

theorem Table.find?_map {κ κ' β β' : Type} [DecidableEq κ] [DecidableEq κ'] {f : κ → κ'}
    (hf : ∀ {a b}, f a = f b ↔ a = b) (g : β → β') (t : List (κ × β)) (k : κ) :
    Table.find? (t.map fun row => (f row.1, g row.2)) (f k) = (Table.find? t k).map g := by
  induction t with
  | nil => rfl
  | cons row t ih =>
    rw [List.map_cons, Table.find?_cons, Table.find?_cons, ih]
    by_cases h : row.1 = k
    · rw [if_pos h, if_pos (hf.mpr h)]
      rfl
    · rw [if_neg h, if_neg fun e => h (hf.mp e)]

namespace Machine

theorem pure_apply {α : Type} (x : α) (w : World) : (pure x : StateM World α) w = (x, w) := rfl

/-- What is asked first, and what is done when it fails for want of an attribute. -/
theorem has_eq (m : Machine) (v : Value) (name : String) :
    m.has v name = tryCatch (do let _ ← m.reach v name; pure true)
      fun f => if f.isAboutAttribute then pure false else throw f := by
  funext w
  unfold has
  simp only [bind, ExceptT.bind, ExceptT.mk, ExceptT.bindCont, StateT.bind, tryCatch, tryCatchThe,
    MonadExceptOf.tryCatch, ExceptT.tryCatch, ExceptT.run]
  rcases m.reach v name w with ⟨f | _, w'⟩
  · cases h : f.isAboutAttribute <;> simp only [pure_apply, h] <;> rfl
  · rfl

theorem attributeOr_eq (m : Machine) (v : Value) (name : String) (default : Value) :
    m.attributeOr v name default = tryCatch (do valueOf (← m.reach v name))
      fun f => if f.isAboutAttribute then pure default else throw f := by
  funext w
  unfold attributeOr
  simp only [bind, ExceptT.bind, ExceptT.mk, ExceptT.bindCont, StateT.bind, tryCatch, tryCatchThe,
    MonadExceptOf.tryCatch, ExceptT.tryCatch, ExceptT.run]
  rcases m.reach v name w with ⟨f | a, w'⟩
  · cases h : f.isAboutAttribute <;> simp only [pure_apply, h] <;> rfl
  · cases a <;> rfl

end Machine

theorem Foreign.notField {name : String} (h : Foreign name) : Kind.function.fields.contains name = false := by
  have hk := h.1 .function
  unfold Kind.attribute? at hk
  cases hc : Kind.function.fields.contains name with
  | false => rfl
  | true => rw [if_pos hc] at hk; cases hk

namespace Link

variable {L : Link} {m : Machine} {e : Extent} {w v : World} {c c' : Value} {p : Use → Prop}
  {name : String}

/-- What both sides reach through a context, if there is anything. -/
inductive Sought (L : Link) (e : Extent) : Option Access → Option Access → Prop
  | absent : Sought L e none none
  | value {x : Value} (hx : x.Within e) :
    Sought L e (some (.value x)) (some (.value (x.rename L.ρ)))
  | bound {r : Nat} (hr : L.helper r) :
    Sought L e (some (.function (.forwards (routineValue r)) (some L.left.context)))
      (some (.function (.forwards (routineValue (L.ρ.routine r))) (some L.right.context)))

def Held (L : Link) (e : Extent) (a a' : Access) : Prop := L.Sought e (some a) (some a')

theorem Held.reached {a a' : Access} (h : L.Held e a a') : L.Reached e a a' := by
  cases h with
  | value hx => exact .value hx
  | bound hr => exact .bound hr

theorem valueOf_agree {a a' : Access} (h : L.Held e a a') :
    L.Agree e L.Renamed (Machine.valueOf a) (Machine.valueOf a') := by
  cases h with
  | value hx => exact Agree.pure fun _ he => ⟨hx.mono he, rfl⟩
  | bound hr => exact newHandle_agree hr

theorem Linked.sought_shared (h : L.Linked w v) {r : Nat} (hr : L.shared r) :
    L.Sought (L.extent w) (some (.value (routineValue r)))
      (some (.value (routineValue (L.ρ.routine r)))) :=
  .value (h.shared_within hr)

/-! ## Attributes that were set -/

theorem Linked.attributeCell?_within (h : L.Linked w v) (hr : ∃ r, L.exposed r) {x : Value}
    (hx : x.Within (L.extent w)) :
    v.attributeCell? (x.rename L.ρ) = (w.attributeCell? x).map L.ρ.cell ∧
      ∀ n, w.attributeCell? x = some n → L.left.world.cells.length ≤ n := by
  obtain ⟨hv, hall⟩ := h.extras hr
  have table (o : Opaque) : Table.find? v.extras (o.rename L.ρ) =
      (Table.find? w.extras o).map L.ρ.cell := by
    rw [hv]
    exact Table.find?_map (Opaque.rename_inj L.ρ) _ _ _
  have above (o : Opaque) (n : Nat) (hn : Table.find? w.extras o = some n) :
      L.left.world.cells.length ≤ n := by
    unfold Table.find? at hn
    cases hf : w.extras.find? fun row => decide (row.1 = o) with
    | none => rw [hf] at hn; cases hn
    | some row =>
      rw [hf] at hn
      cases hn
      exact hall row (List.mem_of_find?_eq_some hf)
  cases x with
  | opaqueRef o =>
    cases o with
    | object => exact hx.elim
    | _ => exact ⟨table _, above _⟩
  | _ => exact ⟨rfl, by rintro n ⟨⟩⟩

theorem Linked.setAttribute?_within (h : L.Linked w v) (hr : ∃ r, L.exposed r) {x : Value}
    (hx : x.Within (L.extent w)) (name : String) :
    v.setAttribute? (x.rename L.ρ) name = (w.setAttribute? x name).map (Value.rename L.ρ) ∧
      ∀ z, w.setAttribute? x name = some z → z.Within (L.extent w) := by
  obtain ⟨hc, hall⟩ := h.attributeCell?_within hr hx
  cases hn : w.attributeCell? x with
  | none =>
    rw [hn] at hc
    unfold World.setAttribute?
    rw [hn, hc]
    exact ⟨rfl, by rintro z ⟨⟩⟩
  | some n =>
    rw [hn] at hc
    exact h.setAttribute?_cell (h.sound.cell_new n (hall n hn)) hn hc name

theorem sought_value {x : Option Value} (hx : ∀ z, x = some z → z.Within e) :
    L.Sought e (x.map .value) ((x.map (Value.rename L.ρ)).map .value) := by
  cases x with
  | none => exact .absent
  | some z => exact .value (hx z rfl)

/-! ## Reading -/

theorem plainAccess_own (hp : L.present) (ho : L.Open name) :
    L.Agree e L.Sought (Machine.plainAccess L.left.context name)
      (Machine.plainAccess L.right.context name) := by
  unfold Machine.plainAccess
  apply Agree.world
  intro w v hl he
  have hfl : w.find? (w.classOf L.left.context) name = L.left.find? name := by
    rw [hl.left_classOf hp, hl.left_find?]
  have hfr : v.find? (v.classOf L.right.context) name = L.right.find? name := by
    rw [hl.right_classOf hp, hl.right_find?]
  obtain ⟨hs, hw⟩ := hl.setAttribute?_cell hl.sound.cell_store (hl.left_cell hp) (hl.right_cell hp)
    name
  have hf := ho.1
  simp only [Side.context] at *
  rw [hfl, hfr]
  generalize L.left.find? name = x at hf
  generalize L.right.find? name = y at hf
  -- What was set on the context comes before what its class finds.
  cases hf with
  | absent =>
    dsimp only
    rw [hs]
    cases hx : w.setAttribute? (.opaqueRef (.object L.left.self)) name with
    | none => exact .ok hl (Extent.Below.refl _) .absent
    | some z => exact .ok hl (Extent.Below.refl _) (.value (hw z hx))
  | ofInstance hr =>
    dsimp only
    rw [hs]
    cases hx : w.setAttribute? (.opaqueRef (.object L.left.self)) name with
    | none => exact .ok hl (Extent.Below.refl _) (.bound hr)
    | some z => exact .ok hl (Extent.Below.refl _) (.value (hw z hx))
  | ofClass hr =>
    dsimp only
    rw [hs]
    cases hx : w.setAttribute? (.opaqueRef (.object L.left.self)) name with
    | none => exact .ok hl (Extent.Below.refl _) (hl.sought_shared hr)
    | some z => exact .ok hl (Extent.Below.refl _) (.value (hw z hx))

theorem plainAccess_null (ho : Unclaimed name) :
    L.Agree e L.Sought (Machine.plainAccess .null name) (Machine.plainAccess .null name) := by
  unfold Machine.plainAccess
  apply Agree.world
  intro w v hl he
  have hf (w : World) : w.find? (w.classOf .null) name = none := World.find?_null w ho.1 ho.2
  rw [hf, hf]
  exact .ok hl (Extent.Below.refl _) .absent

/-- What was set on a value is what is read of it where its class has nothing of the name. -/
theorem exec_setAttribute (w : World) (x : Value) (name : String) :
    Run.exec (match w.setAttribute? x name with
      | some z => pure (some (Access.value z))
      | none => pure none) w = (.ok ((w.setAttribute? x name).map .value), w) := by
  cases w.setAttribute? x name <;> rfl

/-- Where its class, made by no one, has nothing, a value has but what was set on it. -/
theorem plainAccess_unfound {w : World} {x : Value} {k : Kind}
    (hf : w.find? (.builtIn k) name = none) (hn : Kind.function.fields.contains name = false)
    (hw : name ≠ "__wrapped__") (hk : w.classOf x = .builtIn k)
    (hx : ∀ cls, x ≠ World.classValue cls) :
    (Machine.plainAccess x name).exec w = (.ok ((w.setAttribute? x name).map .value), w) := by
  unfold Machine.plainAccess
  rw [Run.exec_bind, Run.exec_world]
  dsimp only
  rw [hk, hf]
  have rest := exec_setAttribute w x name
  cases x with
  | opaqueRef o =>
    cases o with
    | cls c => exact absurd rfl (hx c)
    | routine r =>
      dsimp only
      rw [hn, Bool.and_false]
      simp only [Bool.false_eq_true, if_false]
      split
      · exact absurd rfl hw
      · rfl
    | _ => exact rest
  | _ => exact rest

/-- A value that a class made by no one stands behind has but what was set on it. -/
theorem plainAccess_foreign {w : World} {x : Value} {k : Kind} (hf : Foreign name)
    (hk : w.classOf x = .builtIn k) (hx : ∀ cls, x ≠ World.classValue cls) :
    (Machine.plainAccess x name).exec w = (.ok ((w.setAttribute? x name).map .value), w) :=
  plainAccess_unfound (World.find?_foreign w k hf) hf.notField hf.2 hk hx

theorem within_ne_class {x : Value} (hx : x.Within e) (cls : ClassRef) :
    x ≠ World.classValue cls := by
  rintro rfl
  exact hx

theorem rename_ne_class {x : Value} (hx : x.Within e) (ρ : Renaming) (cls : ClassRef) :
    x.rename ρ ≠ World.classValue cls := by
  intro hc
  cases x with
  | opaqueRef o =>
    cases o with
    | cls => exact hx
    | _ => cases hc
  | _ => cases hc

theorem plainAccess_apart {x : Value} (hx : x.Within e) (hr : ∃ r, L.exposed r)
    (hf : Foreign name) :
    L.Agree e L.Sought (Machine.plainAccess x name) (Machine.plainAccess (x.rename L.ρ) name) := by
  intro w v hl he
  have hw := hx.mono he
  obtain ⟨k, hk, hk'⟩ := hl.classOf_within hw
  obtain ⟨hs, hz⟩ := hl.setAttribute?_within hr hw name
  unfold Alike
  rw [plainAccess_foreign hf hk (within_ne_class hx),
    plainAccess_foreign hf hk' (rename_ne_class hx L.ρ), hs]
  exact .ok hl (Extent.Below.refl _) (sought_value hz)

theorem plainAccess_agree (hc : L.Context e c c' p) (hp : p (.asked name)) :
    L.Agree e L.Sought (Machine.plainAccess c name) (Machine.plainAccess c' name) := by
  cases hc with
  | own h => exact plainAccess_own h hp
  | null => exact plainAccess_null hp
  | apart hx hr => exact plainAccess_apart hx hr hp

theorem noAttribute_agree (hc : L.Context e c c' p) (hl : L.Linked w v)
    (he : e.Below (L.extent w)) (name : String) :
    L.Faults (w.noAttribute c name) (v.noAttribute c' name) := by
  cases hc with
  | own hp => exact hl.noAttribute_faults hp name
  | null => exact .same _
  | apart hx hr =>
    have hk := hl.kindName_within (hx.mono he)
    have named : L.Faults (.noAttribute (.object (w.kindName c)) name)
        (.noAttribute (.object (v.kindName (c.rename L.ρ))) name) := by
      rw [hk]
      exact .same _
    cases c with
    | opaqueRef o =>
      cases o with
      | cls => exact hx.elim
      | _ => exact named
    | _ => exact named

theorem plainReach_agree (hc : L.Context e c c' p) (hp : p (.asked name)) :
    L.Agree e L.Held (Machine.plainReach c name) (Machine.plainReach c' name) := by
  have lacking : L.Agree e L.Held
      (do throw ((← Run.world).noAttribute c name))
      (do throw ((← Run.world).noAttribute c' name)) := by
    apply Agree.world
    intro w v hl he
    exact Agree.throw (noAttribute_agree hc hl he name) w v hl he
  unfold Machine.plainReach
  apply Agree.bind (plainAccess_agree hc hp)
  rintro e₁ a a' h₁ ha
  cases ha with
  | absent =>
    apply Agree.weaken _ h₁
    cases hc with
    | own _ => exact lacking
    | null => exact lacking
    | apart hx hr =>
      cases c with
      | opaqueRef o =>
        cases o with
        | cls => exact hx.elim
        | _ => exact lacking
      | _ => exact lacking
  | value hx => exact Agree.pure fun _ he => .value (hx.mono he)
  | bound hr => exact Agree.pure fun _ _ => .bound hr

/-- What the class of a context takes over stands for the same on both sides. -/
theorem Context.special? (hc : L.Context e c c' p) (hl : L.Linked w v)
    (he : e.Below (L.extent w)) (hn : name ∈ specials) :
    (w.special? c name = none ∧ v.special? c' name = none) ∨
      ∃ a a', w.special? c name = some a ∧ v.special? c' name = some a' ∧
        L.Reached (L.extent w) a a' := by
  cases hc with
  | own hp => exact hl.special?_context hp hn
  | null => exact .inl ⟨World.special?_builtIn rfl name, World.special?_builtIn rfl name⟩
  | apart hx hr => exact .inl (hl.special?_within (hx.mono he) name)

theorem use_agree (hm : L.Faithful m) {Q : Extent → Access → Access → Prop}
    (hq : ∀ {e x}, x.Within e → Q e (.value x) (.value (x.rename L.ρ))) {a a' : Access}
    (ha : L.Reached e a a') :
    L.Agree e Q (Access.value <$> m.use a [.str name] [])
      (Access.value <$> m.use a' [.str name] []) := by
  rw [map_eq_pure_bind, map_eq_pure_bind]
  apply Agree.bind (hm.use ha (show Args e [.str name] [] from ⟨by simp, by simp [Named.Within]⟩))
  rintro e₁ x _ _ ⟨hx, rfl⟩
  exact Agree.pure fun _ he => hq (hx.mono he)

theorem Faults.isAboutAttribute {f g : Fault} (h : L.Faults f g) :
    f.isAboutAttribute = g.isAboutAttribute := by
  cases h <;> rfl

/-- What is reached first, by the rule a class may have changed, is reached alike. -/
theorem reachFirst_agree (hm : L.Faithful m) {w v : World} (hc : L.Context (L.extent w) c c' p)
    {Q : Extent → Access → Access → Prop}
    (hq : ∀ {e x}, x.Within e → Q e (.value x) (.value (x.rename L.ρ)))
    (plain : L.Agree (L.extent w) Q (Machine.plainReach c name) (Machine.plainReach c' name))
    (hl : L.Linked w v) :
    L.Agree (L.extent w) Q
      (match w.special? c "__getattribute__" with
        | some a => .value <$> m.use a [.str name] []
        | none => Machine.plainReach c name)
      (match v.special? c' "__getattribute__" with
        | some a => .value <$> m.use a [.str name] []
        | none => Machine.plainReach c' name) := by
  rcases hc.special? hl (Extent.Below.refl _) (show "__getattribute__" ∈ specials by decide) with
    ⟨h, h'⟩ | ⟨a, a', h, h', ha⟩
  · rw [h, h']
    exact plain
  · rw [h, h']
    exact use_agree hm hq ha

/-- What is reached by the rule that no class changes is reached alike by the full rule. -/
theorem reach_of_plainReach (hm : L.Faithful m) (hc : L.Context e c c' p)
    {Q : Extent → Access → Access → Prop}
    (hq : ∀ {e x}, x.Within e → Q e (.value x) (.value (x.rename L.ρ)))
    (plain : ∀ {e'}, e.Below e' →
      L.Agree e' Q (Machine.plainReach c name) (Machine.plainReach c' name)) :
    L.Agree e Q (m.reach c name) (m.reach c' name) := by
  unfold Machine.reach
  apply Agree.world
  intro w v hl he
  have hc := hc.mono he
  have first := reachFirst_agree hm hc hq (plain he) hl
  rcases hc.special? hl (Extent.Below.refl _) (show "__getattr__" ∈ specials by decide) with
    ⟨h, h'⟩ | ⟨a, a', h, h', ha⟩
  · simp only [h, h']
    exact first w v hl (Extent.Below.refl _)
  · simp only [h, h']
    refine Agree.tryCatch first (fun e₁ f g h₁ hf => ?_) w v hl (Extent.Below.refl _)
    rw [← hf.isAboutAttribute]
    cases f.isAboutAttribute with
    | true => exact use_agree hm hq (ha.mono h₁)
    | false => exact Agree.throw hf

theorem reach_agree (hm : L.Faithful m) (hc : L.Context e c c' p) (hp : p (.asked name)) :
    L.Agree e L.Held (m.reach c name) (m.reach c' name) :=
  reach_of_plainReach hm hc (Q := L.Held) .value fun he => plainReach_agree (hc.mono he) hp

theorem has_agree (hm : L.Faithful m) (hc : L.Context e c c' p) (hp : p (.asked name)) :
    L.Agree e Equal (m.has c name) (m.has c' name) := by
  rw [Machine.has_eq, Machine.has_eq]
  apply Agree.tryCatch
  · apply Agree.bind (reach_agree hm hc hp)
    rintro e₁ a a' _ _
    exact Agree.pure fun _ _ => rfl
  · intro e₁ f g _ hf
    rw [← hf.isAboutAttribute]
    cases f.isAboutAttribute with
    | true => exact Agree.pure fun _ _ => rfl
    | false => exact Agree.throw hf

theorem attributeOr_agree (hm : L.Faithful m) (hc : L.Context e c c' p) (hp : p (.asked name))
    {default : Value} (hd : default.Within e) :
    L.Agree e L.Renamed (m.attributeOr c name default)
      (m.attributeOr c' name (default.rename L.ρ)) := by
  rw [Machine.attributeOr_eq, Machine.attributeOr_eq]
  apply Agree.tryCatch
  · apply Agree.bind (reach_agree hm hc hp)
    rintro e₁ a a' _ ha
    exact valueOf_agree ha
  · intro e₁ f g h₁ hf
    rw [← hf.isAboutAttribute]
    cases f.isAboutAttribute with
    | true => exact Agree.pure fun _ he => ⟨hd.mono (h₁.trans he), rfl⟩
    | false => exact Agree.throw hf

/-! ## Methods -/

/-- What is reached under a name of the classes: what was set on the contexts, or what is there. -/
inductive Got (L : Link) (c c' : Access) (e : Extent) : Access → Access → Prop
  | own {x : Value} (hx : x.Within e) : Got L c c' e (.value x) (.value (x.rename L.ρ))
  | found : Got L c c' e c c'

theorem Got.mono {c c' y y' : Access} {e e' : Extent} (he : e.Below e') (h : L.Got c c' e y y') :
    L.Got c c' e' y y' := by
  cases h with
  | own hx => exact .own (hx.mono he)
  | found => exact .found

inductive Methods : Attribute → Attribute → Prop
  | ofObject (f g : Function) : Methods (.ofObject f) (.ofObject g)
  | ofClass (f g : Function) : Methods (.ofClass f) (.ofClass g)

def methodOf (self : Value) (a : Nat) : Attribute → Access
  | .ofObject f => .function f (some self)
  | .ofClass f => .function f (some (World.classValue (.made a)))
  | _ => .value .null

theorem plainAccess_method (hp : L.present) {x y : Attribute} (hxy : Methods x y)
    (hf : ∃ k, L.left.find? name = some (.made k, x))
    (hf' : ∃ k, L.right.find? name = some (.made k, y)) :
    L.Agree e (fun e p q => ∃ c c', p = some c ∧ q = some c' ∧
        L.Got (methodOf L.left.context L.left.cls x) (methodOf L.right.context L.right.cls y) e c c')
      (Machine.plainAccess L.left.context name) (Machine.plainAccess L.right.context name) := by
  unfold Machine.plainAccess
  apply Agree.world
  intro w v hl he
  obtain ⟨k, hf⟩ := hf
  obtain ⟨k', hf'⟩ := hf'
  have hcl := hl.left_classOf hp
  have hcr := hl.right_classOf hp
  have hfl : w.find? (w.classOf L.left.context) name = some (.made k, x) := by
    rw [hcl, hl.left_find?, hf]
  have hfr : v.find? (v.classOf L.right.context) name = some (.made k', y) := by
    rw [hcr, hl.right_find?, hf']
  obtain ⟨hs, hw⟩ := hl.setAttribute?_cell hl.sound.cell_store (hl.left_cell hp) (hl.right_cell hp)
    name
  simp only [Side.context] at *
  rw [hfl, hfr]
  cases hxy with
  | ofObject f g =>
    dsimp only
    rw [hs]
    cases hx : w.setAttribute? (.opaqueRef (.object L.left.self)) name with
    | none => exact .ok hl (Extent.Below.refl _) ⟨_, _, rfl, rfl, .found⟩
    | some z => exact .ok hl (Extent.Below.refl _) ⟨_, _, rfl, rfl, .own (hw z hx)⟩
  | ofClass f g =>
    dsimp only
    rw [hs]
    cases hx : w.setAttribute? (.opaqueRef (.object L.left.self)) name with
    | none =>
      refine .ok hl (Extent.Below.refl _) ⟨_, _, rfl, rfl, ?_⟩
      simp only [World.reached, hcl, hcr]
      exact .found
    | some z => exact .ok hl (Extent.Below.refl _) ⟨_, _, rfl, rfl, .own (hw z hx)⟩

theorem reach_method (hm : L.Faithful m) (hp : L.present) {x y : Attribute} (hxy : Methods x y)
    (hf : ∃ k, L.left.find? name = some (.made k, x))
    (hf' : ∃ k, L.right.find? name = some (.made k, y)) :
    L.Agree e (L.Got (methodOf L.left.context L.left.cls x) (methodOf L.right.context L.right.cls y))
      (m.reach L.left.context name) (m.reach L.right.context name) := by
  apply reach_of_plainReach hm (.own hp) .own
  intro e' _
  unfold Machine.plainReach
  apply Agree.bind (plainAccess_method hp hxy hf hf')
  rintro e₁ _ _ _ ⟨c, c', rfl, rfl, hc⟩
  exact Agree.pure fun e₂ h₂ => hc.mono h₂

theorem use_got (hm : L.Faithful m) {c c' y y' : Access} {args : List Value} {named : Named}
    (hy : L.Got c c' e y y') (ha : Args e args named)
    (hc : L.Agree e L.Renamed (m.use c args named)
      (m.use c' (args.map (Value.rename L.ρ)) (Named.rename L.ρ named))) :
    L.Agree e L.Renamed (m.use y args named)
      (m.use y' (args.map (Value.rename L.ρ)) (Named.rename L.ρ named)) := by
  cases hy with
  | own hx => exact hm.use (.value hx) ha
  | found => exact hc

/-- A method of both classes that gives the same is called alike through both contexts. -/
theorem tells_agree (hm : L.Faithful m) (hp : L.present)
    (ht : L.left.world.TellAlike L.right.world L.left.cls L.right.cls name) :
    L.Agree e L.Renamed
      (do
        let a ← m.reach L.left.context name
        m.use a [] [])
      (do
        let a ← m.reach L.right.context name
        m.use a [] []) := by
  obtain ⟨left, right, tells, tells', closed⟩ := ht
  apply Agree.bind (reach_method hm hp (.ofClass _ _) ⟨_, left⟩ ⟨_, right⟩)
  intro e₁ y y' _ hy
  exact use_got hm hy (Args.none e₁) (hm.tells tells tells' closed)

/-! ## Setting -/

theorem writeCell_agree {n : Nat} (hn : n = L.store ∨ L.left.world.cells.length ≤ n) {x : Value}
    (hx : x.Within e) :
    L.Agree e Equal (Machine.writeCell n name x)
      (Machine.writeCell (L.ρ.cell n) name (x.rename L.ρ)) := by
  intro w v hl he
  have hcell : L.cell n := by
    rcases hn with rfl | hn
    · exact hl.sound.cell_store
    · exact hl.sound.cell_new n hn
  have hrows : Value.RowsWithin (L.extent w) ((w.cell n).rows?.getD []) := by
    cases hr : (w.cell n).rows? with
    | none => simp [Value.RowsWithin]
    | some rows => exact Value.within_rows (hl.cell_within hcell) hr
  have hset := Value.within_insertBy (k := .str name) trivial (hx.mono he) hrows
  have hv : Value.dict (Table.insertBy Value.same (.str name) (x.rename L.ρ)
      ((v.cell (L.ρ.cell n)).rows?.getD [])) =
      (Value.dict (Table.insertBy Value.same (.str name) x
        ((w.cell n).rows?.getD []))).rename L.ρ := by
    rw [hl.cell_rename hcell, Value.rows?_rename, Value.rename, Value.renameRows_eq,
      ← Value.insertBy_rename]
    cases (w.cell n).rows? <;> rfl
  show L.Ends Equal (L.extent w)
    (.ok (), w.store (.cell n) (.dict (Table.insertBy Value.same (.str name) x
      ((w.cell n).rows?.getD []))))
    (.ok (), v.store (.cell (L.ρ.cell n)) (.dict (Table.insertBy Value.same (.str name)
      (x.rename L.ρ) ((v.cell (L.ρ.cell n)).rows?.getD []))))
  rw [hv]
  exact .ok (hl.store hn (Value.withinRows_iff.mpr hset))
    (extent_below (by simp [World.store]) (Nat.le_refl _) (Nat.le_refl _)) rfl

/-- The cell of what is set on a value other than the context, made where there is none. -/
theorem attributeCell_apart (hs : L.settable) (hr : ∃ r, L.exposed r) {o : Opaque}
    (ho : (Value.opaqueRef o).Within e) :
    L.Agree e (fun _ n n' => ∃ k, n = some k ∧ n' = some (L.ρ.cell k) ∧
        L.left.world.cells.length ≤ k)
      (Machine.attributeCell (.opaqueRef o)) (Machine.attributeCell (.opaqueRef (o.rename L.ρ))) := by
  unfold Machine.attributeCell
  apply Agree.world
  intro w v hl he
  obtain ⟨hv, hall⟩ := hl.attributeCell?_within hr (ho.mono he)
  rw [Value.rename] at hv
  rw [hv]
  cases hn : w.attributeCell? (.opaqueRef o) with
  | some k => exact .ok hl (Extent.Below.refl _) ⟨k, rfl, rfl, hall k hn⟩
  | none =>
    have made : L.Ends (fun _ n n' => ∃ k, n = some k ∧ n' = some (L.ρ.cell k) ∧
          L.left.world.cells.length ≤ k) (L.extent w)
        (.ok (some w.cells.length), { w with
          cells := w.cells ++ [.dict []], extras := w.extras ++ [(o, w.cells.length)] })
        (.ok (some v.cells.length), { v with
          cells := v.cells ++ [.dict []],
          extras := v.extras ++ [(o.rename L.ρ, v.cells.length)] }) := by
      have h0 := hl.cell_shift 0
      rw [Nat.add_zero, Nat.add_zero] at h0
      have hnew := (hl.newCell (x := .dict []) trivial).setExtras hs (o := o)
        (n := w.cells.length) hl.left.cells_le
      rw [h0] at hnew
      exact .ok hnew (extent_below (by simp) (Nat.le_refl _) (Nat.le_refl _))
        ⟨_, rfl, congrArg some h0.symm, hl.left.cells_le⟩
    cases o with
    | object => exact ho.elim
    | _ => exact made

theorem plainAssign_own (hp : L.present) (ho : L.Open name) {x : Value} (hx : x.Within e) :
    L.Agree e Equal (Machine.plainAssign L.left.context name x)
      (Machine.plainAssign L.right.context name (x.rename L.ρ)) := by
  unfold Machine.plainAssign
  apply Agree.world
  intro w v hl he
  have hfl : w.find? (w.classOf L.left.context) name = L.left.find? name := by
    rw [hl.left_classOf hp, hl.left_find?]
  have hfr : v.find? (v.classOf L.right.context) name = L.right.find? name := by
    rw [hl.right_classOf hp, hl.right_find?]
  -- The context has a cell, so what its class finds does not matter.
  have cell : Run.exec (Machine.attributeCell L.left.context) w = (.ok (some L.store), w) := by
    unfold Machine.attributeCell
    rw [Run.exec_bind, Run.exec_world]
    simp only [hl.left_cell hp]
    rfl
  have cell' : Run.exec (Machine.attributeCell L.right.context) v =
      (.ok (some (L.ρ.cell L.store)), v) := by
    unfold Machine.attributeCell
    rw [Run.exec_bind, Run.exec_world]
    simp only [hl.right_cell hp]
    rfl
  have written : L.Alike Equal w v (Machine.writeCell L.store name x)
      (Machine.writeCell (L.ρ.cell L.store) name (x.rename L.ρ)) :=
    writeCell_agree (.inl rfl) hx w v hl he
  unfold Alike at written ⊢
  have hf := ho.1
  simp only [Side.context] at *
  rw [hfl, hfr]
  generalize L.left.find? name = a at hf
  generalize L.right.find? name = b at hf
  cases hf with
  | absent =>
    dsimp only
    rw [Run.exec_bind, cell, Run.exec_bind, cell']
    exact written
  | ofInstance hr =>
    dsimp only
    rw [Run.exec_bind, cell, Run.exec_bind, cell']
    exact written
  | ofClass hr =>
    dsimp only
    rw [Run.exec_bind, cell, Run.exec_bind, cell']
    exact written

theorem plainAssign_null (ho : Unclaimed name) (x y : Value) :
    L.Agree e Equal (Machine.plainAssign .null name x) (Machine.plainAssign .null name y) := by
  unfold Machine.plainAssign
  apply Agree.world
  intro w v hl he
  have hf (w : World) : w.find? (w.classOf .null) name = none := World.find?_null w ho.1 ho.2
  rw [hf, hf]
  exact .error hl (Extent.Below.refl _) (.same _)

theorem plainAssign_apart {c : Value} (hc : c.Within e) (hr : ∃ r, L.exposed r)
    (hf : Foreign name) (hs : L.settable) {x : Value} (hx : x.Within e) :
    L.Agree e Equal (Machine.plainAssign c name x)
      (Machine.plainAssign (c.rename L.ρ) name (x.rename L.ρ)) := by
  unfold Machine.plainAssign
  apply Agree.world
  intro w v hl he
  obtain ⟨k, hk, hk'⟩ := hl.classOf_within (hc.mono he)
  have hkind := hl.kindName_within (hc.mono he)
  have noRoom : L.Ends (fun _ (a b : Unit) => a = b) (L.extent w)
      (.error (.noRoom (w.kindName c) name), w)
      (.error (.noRoom (v.kindName (c.rename L.ρ)) name), v) := by
    rw [hkind]
    exact .error hl (Extent.Below.refl _) (.same _)
  rw [hk, hk', World.find?_foreign w k hf, World.find?_foreign v k hf]
  cases c with
  | opaqueRef o =>
    cases o with
    | token serial text | mute serial text =>
      refine Agree.bind (attributeCell_apart hs hr hc) (fun e₁ _ _ h₁ hn => ?_) w v hl he
      obtain ⟨n, rfl, rfl, hn⟩ := hn
      exact writeCell_agree (.inr hn) (hx.mono h₁)
    | routine r =>
      cases hl.routine (hc.mono he) with
      | shared b hw hv _ =>
        have hkw : w.classOf (.opaqueRef (.routine r)) = .builtIn .function := by
          simp only [World.classOf, hw]
        have hkv : v.classOf (.opaqueRef (.routine (L.ρ.routine r))) = .builtIn .function := by
          simp only [World.classOf, hv]
        dsimp only [Value.rename, Opaque.rename]
        rw [hkw, hkv]
        refine Agree.bind (attributeCell_apart hs hr hc) (fun e₁ _ _ h₁ hn => ?_) w v hl he
        obtain ⟨n, rfl, rfl, hn⟩ := hn
        exact writeCell_agree (.inr hn) (hx.mono h₁)
      | bound h hh hw hv =>
        have hkw : w.classOf (.opaqueRef (.routine r)) = .builtIn .method := by
          simp only [World.classOf, hw]
        have hkv : v.classOf (.opaqueRef (.routine (L.ρ.routine r))) = .builtIn .method := by
          simp only [World.classOf, hv]
        dsimp only [Value.rename, Opaque.rename]
        rw [hkw, hkv]
        exact noRoom
    | cls => exact hc.elim
    | object => exact hc.elim
    | _ => exact noRoom
  | _ => exact noRoom

theorem plainAssign_agree (hc : L.Context e c c' p) (hp : p (.written name)) {x : Value}
    (hx : x.Within e) :
    L.Agree e Equal (Machine.plainAssign c name x)
      (Machine.plainAssign c' name (x.rename L.ρ)) := by
  cases hc with
  | own h => exact plainAssign_own h hp hx
  | null => exact plainAssign_null hp _ _
  | apart hc hr => exact plainAssign_apart hc hr hp.1 hp.2 hx

theorem assign_agree (hm : L.Faithful m) (hc : L.Context e c c' p) (hp : p (.written name))
    {x : Value} (hx : x.Within e) :
    L.Agree e Equal (m.assign c name x) (m.assign c' name (x.rename L.ρ)) := by
  unfold Machine.assign
  apply Agree.world
  intro w v hl he
  rcases hc.special? hl he (show "__setattr__" ∈ specials by decide) with
    ⟨h, h'⟩ | ⟨a, a', h, h', ha⟩
  · rw [h, h']
    exact plainAssign_agree hc hp hx w v hl he
  · rw [h, h']
    refine Agree.bind (hm.use ha (show Args _ [.str name, x] [] from ⟨?_, by simp [Named.Within]⟩)) ?_ w v hl
      (Extent.Below.refl _)
    · simpa using hx.mono he
    · rintro e₁ _ _ _ _
      exact Agree.pure fun _ _ => rfl

/-! ## The class of a context -/

theorem classValueOf_apart {x : Value} (hx : x.Within e) :
    L.Agree e (fun _ a b => ∃ k, a = World.classValue (.builtIn k) ∧ b = a)
      (Machine.classValueOf x) (Machine.classValueOf (x.rename L.ρ)) := by
  have known : L.Agree e (fun _ a b => ∃ k, a = World.classValue (.builtIn k) ∧ b = a)
      (do return World.classValue ((← Run.world).classOf x))
      (do return World.classValue ((← Run.world).classOf (x.rename L.ρ))) := by
    apply Agree.world
    intro w v hl he
    obtain ⟨k, hk, hk'⟩ := hl.classOf_within (hx.mono he)
    rw [hk, hk']
    exact .ok hl (Extent.Below.refl _) ⟨k, rfl, rfl⟩
  unfold Machine.classValueOf
  cases x with
  | opaqueRef o =>
    cases o with
    | plain => exact Agree.throw (.same _)
    | _ => exact known
  | _ => exact known

theorem abstractmethods_ne (ht : Kind.type.attribute? name = none) :
    name ≠ "__abstractmethods__" := by
  rintro rfl
  exact absurd ht (by decide)

/-- A class that was made by no one has nothing under a name that its objects lack. -/
theorem reach_class {w : World} {cls : ClassRef} (ho : Kind.object.attribute? name = none)
    (ht : Kind.type.attribute? name = none) :
    (m.reach (World.classValue cls) name).exec w =
      match w.find? cls name with
      | some (holder, a) => (.ok (w.reached holder cls none a), w)
      | none => (.error (.noAttribute (.cls (w.className cls)) name), w) := by
  have hs (name : String) : w.special? (World.classValue cls) name = none :=
    World.special?_builtIn (k := .type) rfl name
  have hf : w.find? (w.classOf (World.classValue cls)) name = none := World.find?_type w ho ht
  unfold Machine.reach
  rw [Run.exec_bind, Run.exec_world]
  simp only [hs]
  unfold Machine.plainReach Machine.plainAccess
  rw [Run.exec_bind, Run.exec_bind, Run.exec_world]
  simp only [World.classValue] at *
  rw [hf]
  dsimp only
  cases w.find? cls name with
  | some found => rfl
  | none =>
    simp only [Option.map_none, Run.exec_pure]
    split
    · exact absurd rfl (abstractmethods_ne ht)
    · rfl

theorem classReach_agree (hc : L.Context e c c' p) (hp : p (.ofClass name)) :
    L.Agree e L.Reached (do m.reach (← Machine.classValueOf c) name)
      (do m.reach (← Machine.classValueOf c') name) := by
  cases hc with
  | own h =>
    obtain ⟨⟨hf, ho, _⟩, ht, hx⟩ := hp
    intro w v hl he
    have hcl : Run.exec (Machine.classValueOf L.left.context) w =
        (.ok (World.classValue (.made L.left.cls)), w) := by
      show (Except.ok (World.classValue (w.classOf L.left.context)), w) = _
      rw [hl.left_classOf h]
    have hcr : Run.exec (Machine.classValueOf L.right.context) v =
        (.ok (World.classValue (.made L.right.cls)), v) := by
      show (Except.ok (World.classValue (v.classOf L.right.context)), v) = _
      rw [hl.right_classOf h]
    unfold Alike
    rw [Run.exec_bind, hcl, Run.exec_bind, hcr]
    dsimp only
    rw [reach_class ho ht, reach_class ho ht, hl.left_find?, hl.right_find?]
    generalize L.left.find? name = a at hf hx
    generalize L.right.find? name = b at hf
    cases hf with
    | absent =>
      rw [hl.left_className, hl.right_className]
      exact .error hl (Extent.Below.refl _) (.ofClass name)
    | ofInstance hr => exact .ok hl (Extent.Below.refl _) (.apart hr (hx _ _ rfl))
    | ofClass hr => exact .ok hl (Extent.Below.refl _) (hl.reached_shared hr)
  | null =>
    obtain ⟨⟨ho, hn⟩, ht⟩ := hp
    intro w v hl he
    unfold Alike
    rw [Run.exec_bind, Run.exec_bind]
    show L.Ends _ _ (Run.exec (m.reach (World.classValue (.builtIn .null)) name) w)
      (Run.exec (m.reach (World.classValue (.builtIn .null)) name) v)
    rw [reach_class ho ht, reach_class ho ht, World.find?_null w ho hn, World.find?_null v ho hn]
    exact .error hl (Extent.Below.refl _) (.same _)
  | apart hx hr =>
    apply Agree.bind (classValueOf_apart hx)
    rintro e₁ _ _ _ ⟨k, rfl, rfl⟩
    intro w v hl he
    unfold Alike
    rw [reach_class (hp.1 _) (hp.1 _), reach_class (hp.1 _) (hp.1 _), World.find?_foreign w k hp,
      World.find?_foreign v k hp]
    exact .error hl (Extent.Below.refl _) (.same _)

theorem kindName_agree (hc : L.Context e c c' p) (hp : p .className) (hl : L.Linked w v)
    (he : e.Below (L.extent w)) : v.kindName c' = w.kindName c := by
  cases hc with
  | own h =>
    show v.className (v.classOf L.right.context) = w.className (w.classOf L.left.context)
    rw [hl.right_classOf h, hl.left_classOf h, hl.right_className, hl.left_className]
    exact hp.symm
  | null => rfl
  | apart hx hr => exact hl.kindName_within (hx.mono he)

end Link

end Toolwright
