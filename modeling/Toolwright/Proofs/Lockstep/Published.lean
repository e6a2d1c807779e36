import Toolwright.Proofs.Lockstep.Shown

/-!
# Published texts in linked worlds

The text under which a result is published is the same on both sides. A container is first freed of
its references, then its keys and its leaves get their texts.
-/

namespace Toolwright

set_option autoImplicit false

namespace Value

variable {s : Extent}

theorem within_memberKey {k key : Value} (hk : k.Within s) (h : memberKey k = .ok key) :
    key.Within s := by
  unfold memberKey at h
  split at h
  · cases h; exact hk
  · cases ht : k.text with
    | error f => rw [ht] at h; cases h
    | ok text => rw [ht] at h; cases h; trivial

mutual

theorem within_settleKeys {v settled : Value} (hv : v.Within s) (h : v.settleKeys = .ok settled) :
    settled.Within s := by
  cases v with
  | list xs | tuple xs =>
    rw [settleKeys] at h
    cases hx : settleItems xs with
    | error f => rw [hx] at h; cases h
    | ok ys => rw [hx] at h; cases h; exact within_settleItems hv hx
  | dict rows | mapping rows =>
    rw [settleKeys] at h
    cases hx : settleRows rows with
    | error f => rw [hx] at h; cases h
    | ok ys =>
      rw [hx] at h
      cases h
      exact withinRows_iff.mpr (within_collectRows (withinRows_iff.mp (within_settleRows hv hx)))
  | _ => cases h; exact hv

theorem within_settleItems {xs ys : List Value} (hx : WithinItems s xs)
    (h : settleItems xs = .ok ys) : WithinItems s ys := by
  cases xs with
  | nil => cases h; trivial
  | cons x xs =>
    rw [settleItems] at h
    cases h1 : x.settleKeys with
    | error f => rw [h1] at h; cases h
    | ok y =>
      cases h2 : settleItems xs with
      | error f => rw [h1, h2] at h; cases h
      | ok ys =>
        rw [h1, h2] at h
        cases h
        exact ⟨within_settleKeys hx.1 h1, within_settleItems hx.2 h2⟩

theorem within_settleRows {rows others : List (Value × Value)} (hx : WithinRows s rows)
    (h : settleRows rows = .ok others) : WithinRows s others := by
  cases rows with
  | nil => cases h; trivial
  | cons row rows =>
    obtain ⟨k, v⟩ := row
    rw [settleRows] at h
    cases h1 : memberKey k with
    | error f => rw [h1] at h; cases h
    | ok key =>
      cases h2 : v.settleKeys with
      | error f => rw [h1, h2] at h; cases h
      | ok y =>
        cases h3 : settleRows rows with
        | error f => rw [h1, h2, h3] at h; cases h
        | ok others =>
          rw [h1, h2, h3] at h
          cases h
          exact ⟨⟨within_memberKey hx.1.1 h1, within_settleKeys hx.1.2 h2⟩,
            within_settleRows hx.2 h3⟩

end

end Value

namespace Link

variable {L : Link} {m : Machine}

/-! ## Keys -/

mutual

theorem nameKeys_agree (hm : L.Faithful m) {e : Extent} {x : Value} (hx : x.Within e.flat) :
    L.Agree e L.Flat (m.nameKeys x) (m.nameKeys (x.rename L.ρ)) := by
  cases x with
  | list xs | tuple xs =>
    simp only [Value.rename, Machine.nameKeys]
    apply Agree.bind (nameItemKeys_agree hm hx)
    rintro e₁ ys _ _ ⟨hys, rfl⟩
    exact Agree.pure fun _ he => ⟨hys.mono (Extent.flat_mono he), rfl⟩
  | dict rows | mapping rows =>
    simp only [Value.rename, Machine.nameKeys]
    apply Agree.bind (nameRowKeys_agree hm hx)
    rintro e₁ ys _ _ ⟨hys, rfl⟩
    exact Agree.pure fun _ he => ⟨hys.mono (Extent.flat_mono he), rfl⟩
  | _ => exact Agree.pure fun _ he => ⟨Value.Within.mono (Extent.flat_mono he) hx, rfl⟩

theorem nameItemKeys_agree (hm : L.Faithful m) {e : Extent} {xs : List Value}
    (hx : Value.WithinItems e.flat xs) :
    L.Agree e (fun e ys zs => Value.WithinItems e.flat ys ∧ zs = Value.renameItems L.ρ ys)
      (m.nameItemKeys xs) (m.nameItemKeys (Value.renameItems L.ρ xs)) := by
  cases xs with
  | nil => exact Agree.pure fun _ _ => ⟨trivial, rfl⟩
  | cons x xs =>
    simp only [Value.renameItems, Machine.nameItemKeys]
    apply Agree.bind (nameKeys_agree hm hx.1)
    rintro e₁ y _ h₁ ⟨hy, rfl⟩
    apply Agree.bind (nameItemKeys_agree hm (hx.2.mono (Extent.flat_mono h₁)))
    rintro e₂ ys _ h₂ ⟨hys, rfl⟩
    apply Agree.pure
    intro e₃ h₃
    exact ⟨⟨hy.mono (Extent.flat_mono (h₂.trans h₃)), hys.mono (Extent.flat_mono h₃)⟩, rfl⟩

theorem nameRowKeys_agree (hm : L.Faithful m) {e : Extent} {rows : List (Value × Value)}
    (hx : Value.WithinRows e.flat rows) :
    L.Agree e (fun e ys zs => Value.WithinRows e.flat ys ∧ zs = Value.renameRows L.ρ ys)
      (m.nameRowKeys rows) (m.nameRowKeys (Value.renameRows L.ρ rows)) := by
  cases rows with
  | nil => exact Agree.pure fun _ _ => ⟨trivial, rfl⟩
  | cons row rows =>
    obtain ⟨k, x⟩ := row
    have rest {e₁ : Extent} {key key' : Value} (h₁ : e.Below e₁) (hk : L.Flat e₁ key key') :
        L.Agree e₁ (fun e ys zs => Value.WithinRows e.flat ys ∧ zs = Value.renameRows L.ρ ys)
          (do
            let v ← m.nameKeys x
            return (key, v) :: (← m.nameRowKeys rows))
          (do
            let v ← m.nameKeys (x.rename L.ρ)
            return (key', v) :: (← m.nameRowKeys (Value.renameRows L.ρ rows))) := by
      obtain ⟨hk, rfl⟩ := hk
      apply Agree.bind (nameKeys_agree hm (hx.1.2.mono (Extent.flat_mono h₁)))
      rintro e₂ y _ h₂ ⟨hy, rfl⟩
      apply Agree.bind (nameRowKeys_agree hm (hx.2.mono (Extent.flat_mono (h₁.trans h₂))))
      rintro e₃ ys _ h₃ ⟨hys, rfl⟩
      apply Agree.pure
      intro e₄ h₄
      exact ⟨⟨⟨hk.mono (Extent.flat_mono (h₂.trans (h₃.trans h₄))),
        hy.mono (Extent.flat_mono (h₃.trans h₄))⟩, hys.mono (Extent.flat_mono h₄)⟩, rfl⟩
    simp only [Value.renameRows, Machine.nameRowKeys, Value.isMemberKey_rename]
    split
    · apply Agree.bind (Q := L.Flat)
      · exact Agree.pure fun _ he => ⟨hx.1.1.mono (Extent.flat_mono he), rfl⟩
      · intro e₁ _ _ h₁ hk
        exact rest h₁ hk
    · apply Agree.bind (Q := L.Flat)
      · rw [map_eq_pure_bind, map_eq_pure_bind]
        apply Agree.bind (text_agree hm (hx.1.1.mono (Extent.flat_below e)))
        rintro e₁ s _ _ rfl
        exact Agree.pure fun _ _ => ⟨trivial, rfl⟩
      · intro e₁ _ _ h₁ hk
        exact rest h₁ hk

end

/-! ## Leaves -/

mutual

theorem nameLeaves_agree (hm : L.Faithful m) {e : Extent} {x : Value} (hx : x.Within e) :
    L.Agree e (fun _ y z => z = y.rename L.ρ) (m.nameLeaves x) (m.nameLeaves (x.rename L.ρ)) := by
  cases x with
  | list xs | tuple xs =>
    simp only [Value.rename, Machine.nameLeaves]
    apply Agree.bind (nameItemLeaves_agree hm hx)
    rintro e₁ ys _ _ rfl
    exact Agree.pure fun _ _ => rfl
  | dict rows =>
    simp only [Value.rename, Machine.nameLeaves]
    apply Agree.bind (nameRowLeaves_agree hm hx)
    rintro e₁ ys _ _ rfl
    exact Agree.pure fun _ _ => rfl
  | int n =>
    simp only [Value.rename, Machine.nameLeaves]
    apply Agree.bind (Q := Equal)
    · cases intText n with
      | error f => exact Agree.lift_error f
      | ok s => exact Agree.lift_ok fun _ _ => rfl
    · intro _ _ _ _ _
      exact Agree.pure fun _ _ => rfl
  | null | bool | float | str => exact Agree.pure fun _ _ => rfl
  | bytes | mapping | set | frozenset | opaqueRef =>
    apply Agree.bind (text_agree hm hx)
    rintro e₁ s _ _ rfl
    exact Agree.pure fun _ _ => rfl
  | record => exact hx.elim

theorem nameItemLeaves_agree (hm : L.Faithful m) {e : Extent} {xs : List Value}
    (hx : Value.WithinItems e xs) :
    L.Agree e (fun _ ys zs => zs = Value.renameItems L.ρ ys) (m.nameItemLeaves xs)
      (m.nameItemLeaves (Value.renameItems L.ρ xs)) := by
  cases xs with
  | nil => exact Agree.pure fun _ _ => rfl
  | cons x xs =>
    simp only [Value.renameItems, Machine.nameItemLeaves]
    apply Agree.bind (nameLeaves_agree hm hx.1)
    rintro e₁ y _ h₁ rfl
    apply Agree.bind (nameItemLeaves_agree hm (hx.2.mono h₁))
    rintro e₂ ys _ _ rfl
    exact Agree.pure fun _ _ => rfl

theorem nameRowLeaves_agree (hm : L.Faithful m) {e : Extent} {rows : List (Value × Value)}
    (hx : Value.WithinRows e rows) :
    L.Agree e (fun _ ys zs => zs = Value.renameRows L.ρ ys) (m.nameRowLeaves rows)
      (m.nameRowLeaves (Value.renameRows L.ρ rows)) := by
  cases rows with
  | nil => exact Agree.pure fun _ _ => rfl
  | cons row rows =>
    obtain ⟨k, x⟩ := row
    simp only [Value.renameRows, Machine.nameRowLeaves]
    apply Agree.bind (nameLeaves_agree hm hx.1.2)
    rintro e₁ y _ h₁ rfl
    apply Agree.bind (nameRowLeaves_agree hm (hx.2.mono h₁))
    rintro e₂ ys _ _ rfl
    exact Agree.pure fun _ _ => rfl

end

/-! ## Results -/

variable {e : Extent}

theorem expose_agree {x : Value} (hx : x.Within e) :
    L.Agree e L.Flat (Run.expose x) (Run.expose (x.rename L.ρ)) := by
  unfold Run.expose
  apply Agree.world
  intro w v hl he
  exact lift_twins (exposed_rename hl (hx.mono he)) w v hl (Extent.Below.refl _)

/-- The document of a container. -/
theorem document_agree (hm : L.Faithful m) {x : Value} (hx : x.Within e) (indent : Value) :
    L.Agree e Equal
      (do
        let named ← Run.lift (← m.nameKeys (← Run.expose x)).settleKeys
        let _ ← Run.lift (Layout.ofIndent indent)
        Run.lift ((← m.nameLeaves named).documentText indent))
      (do
        let named ← Run.lift (← m.nameKeys (← Run.expose (x.rename L.ρ))).settleKeys
        let _ ← Run.lift (Layout.ofIndent indent)
        Run.lift ((← m.nameLeaves named).documentText indent)) := by
  apply Agree.bind (expose_agree hx)
  rintro e₁ y _ _ ⟨hy, rfl⟩
  apply Agree.bind (nameKeys_agree hm hy)
  rintro e₂ z _ _ ⟨hz, rfl⟩
  rw [Value.settleKeys_rename]
  apply Agree.bind (Q := L.Renamed)
  · apply Agree.lift_map
    intro a ha e' he
    exact ⟨((Value.within_settleKeys hz ha).mono (Extent.flat_below _)).mono he, rfl⟩
  rintro e₃ settled _ _ ⟨hs, rfl⟩
  apply Agree.bind (Q := Equal)
  · cases Layout.ofIndent indent with
    | error f => exact Agree.lift_error f
    | ok layout => exact Agree.lift_ok fun _ _ => rfl
  intro e₄ _ _ h₄ _
  apply Agree.bind (nameLeaves_agree hm (hs.mono h₄))
  rintro e₅ leaves _ _ rfl
  rw [Value.documentText_rename]
  cases leaves.documentText indent with
  | error f => exact Agree.lift_error f
  | ok text => exact Agree.lift_ok fun _ _ => rfl

theorem resultText_agree (hm : L.Faithful m) {x : Value} (hx : x.Within e) (indent : Value) :
    L.Agree e Equal (m.resultText x indent) (m.resultText (x.rename L.ρ) indent) := by
  unfold Machine.resultText
  apply Agree.bind (look_agree hx)
  rintro e₁ y _ h₁ ⟨_, rfl⟩
  cases y with
  | str s => exact Agree.pure fun _ _ => rfl
  | list | tuple | dict | mapping => exact document_agree hm (hx.mono h₁) indent
  | _ => exact text_agree hm (hx.mono h₁)

end Link

end Toolwright
