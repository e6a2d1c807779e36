import Toolwright.Proofs.Declaration.Given
import Toolwright.Proofs.Declaration.Objects
import Toolwright.Session.Answer

/-!
# Values behind references

What a value exposes depends on the references in it alone, and on what stands behind them. A new
reference to a container exposes what the container does.
-/

namespace Toolwright

set_option autoImplicit false

namespace Value

mutual

/-- All references in a value are of one sort. -/
def Refers (S : Opaque → Prop) : Value → Prop
  | .list xs | .tuple xs | .set xs | .frozenset xs | .record _ xs => RefersItems S xs
  | .dict rows | .mapping rows => RefersRows S rows
  | .opaqueRef o => S o
  | _ => True

def RefersItems (S : Opaque → Prop) : List Value → Prop
  | [] => True
  | x :: xs => Refers S x ∧ RefersItems S xs

def RefersRows (S : Opaque → Prop) : List (Value × Value) → Prop
  | [] => True
  | (k, x) :: rows => (Refers S k ∧ Refers S x) ∧ RefersRows S rows

end

mutual

theorem Within.refers {e : Extent} {S : Opaque → Prop} (hS : ∀ o : Opaque, o.Within e → S o)
    {x : Value} (hx : x.Within e) : x.Refers S := by
  cases x with
  | list xs | tuple xs | set xs | frozenset xs => exact WithinItems.refers hS hx
  | dict rows | mapping rows => exact WithinRows.refers hS hx
  | opaqueRef o => exact hS o hx
  | record => exact hx.elim
  | _ => trivial

theorem WithinItems.refers {e : Extent} {S : Opaque → Prop} (hS : ∀ o : Opaque, o.Within e → S o)
    {xs : List Value} (hx : WithinItems e xs) : RefersItems S xs := by
  cases xs with
  | nil => trivial
  | cons x xs => exact ⟨Within.refers hS hx.1, WithinItems.refers hS hx.2⟩

theorem WithinRows.refers {e : Extent} {S : Opaque → Prop} (hS : ∀ o : Opaque, o.Within e → S o)
    {rows : List (Value × Value)} (hx : WithinRows e rows) : RefersRows S rows := by
  cases rows with
  | nil => trivial
  | cons row rows =>
    exact ⟨⟨Within.refers hS hx.1.1, Within.refers hS hx.1.2⟩, WithinRows.refers hS hx.2⟩

end

mutual

theorem Refers.mono {S T : Opaque → Prop} (hS : ∀ o, S o → T o) {x : Value} (hx : x.Refers S) :
    x.Refers T := by
  cases x with
  | list xs | tuple xs | set xs | frozenset xs | record _ xs => exact RefersItems.mono hS hx
  | dict rows | mapping rows => exact RefersRows.mono hS hx
  | opaqueRef o => exact hS o hx
  | _ => trivial

theorem RefersItems.mono {S T : Opaque → Prop} (hS : ∀ o, S o → T o) {xs : List Value}
    (hx : RefersItems S xs) : RefersItems T xs := by
  cases xs with
  | nil => trivial
  | cons x xs => exact ⟨Refers.mono hS hx.1, RefersItems.mono hS hx.2⟩

theorem RefersRows.mono {S T : Opaque → Prop} (hS : ∀ o, S o → T o) {rows : List (Value × Value)}
    (hx : RefersRows S rows) : RefersRows T rows := by
  cases rows with
  | nil => trivial
  | cons row rows =>
    exact ⟨⟨Refers.mono hS hx.1.1, Refers.mono hS hx.1.2⟩, RefersRows.mono hS hx.2⟩

end

end Value

namespace World

variable {S : Opaque → Prop} {enter enter' : Opaque → Except Fault Value}

mutual

theorem expand_congr (h : ∀ o, S o → enter o = enter' o) {x : Value} (hx : x.Refers S) :
    expand enter x = expand enter' x := by
  cases x with
  | list xs | tuple xs | set xs | frozenset xs | record _ xs =>
    simp only [expand, expandItems_congr h hx]
  | dict rows | mapping rows => simp only [expand, expandRows_congr h hx]
  | opaqueRef o => exact h o hx
  | _ => rfl

theorem expandItems_congr (h : ∀ o, S o → enter o = enter' o) {xs : List Value}
    (hx : Value.RefersItems S xs) : expandItems enter xs = expandItems enter' xs := by
  cases xs with
  | nil => rfl
  | cons x xs => simp only [expandItems, expand_congr h hx.1, expandItems_congr h hx.2]

theorem expandRows_congr (h : ∀ o, S o → enter o = enter' o) {rows : List (Value × Value)}
    (hx : Value.RefersRows S rows) : expandRows enter rows = expandRows enter' rows := by
  cases rows with
  | nil => rfl
  | cons row rows =>
    simp only [expandRows, expand_congr h hx.1.1, expand_congr h hx.1.2, expandRows_congr h hx.2]

end

/-! ## Parts -/

/-- What is exposed of items one by one. -/
def exposedItems (w : World) (xs : List Value) : Except Fault (List Value) :=
  expandItems (follow w.inside? (fun _ => .error .tooDeep) w.referenceCount []) xs

def exposedRows (w : World) (rows : List (Value × Value)) : Except Fault (List (Value × Value)) :=
  expandRows (follow w.inside? (fun _ => .error .tooDeep) w.referenceCount []) rows

section Parts

variable (w : World) (xs : List Value) (rows : List (Value × Value))

theorem exposed_str (text : String) : w.exposed (.str text) = .ok (.str text) := rfl

theorem exposed_bool (b : Bool) : w.exposed (.bool b) = .ok (.bool b) := rfl

theorem exposed_list : w.exposed (.list xs) = do return .list (← w.exposedItems xs) := rfl

theorem exposed_set : w.exposed (.set xs) = do return .set (← w.exposedItems xs) := rfl

theorem exposed_tuple : w.exposed (.tuple xs) = do return .tuple (← w.exposedItems xs) := rfl

theorem exposed_dict : w.exposed (.dict rows) = do return .dict (← w.exposedRows rows) := rfl

theorem exposed_mapping : w.exposed (.mapping rows) = do return .mapping (← w.exposedRows rows) :=
  rfl

theorem exposed_record (s : Shape) :
    w.exposed (.record s xs) = do return .record s (← w.exposedItems xs) := rfl

theorem exposedItems_nil : w.exposedItems [] = .ok [] := rfl

theorem exposedRows_nil : w.exposedRows [] = .ok [] := rfl

theorem exposedItems_cons (x : Value) :
    w.exposedItems (x :: xs) = do return (← w.exposed x) :: (← w.exposedItems xs) := rfl

theorem exposedRows_cons (k x : Value) : w.exposedRows ((k, x) :: rows) = (do
    let k ← w.exposed k
    return (k, ← w.exposed x) :: (← w.exposedRows rows)) := rfl

end Parts

/-! ## References that lead to each other only -/

/-- A reference behind which something stands: a cell or an object. -/
def Solid (w : World) (o : Opaque) : Prop :=
  (∃ n, n < w.cells.length ∧ o = .place (.cell n)) ∨ ∃ n, n < w.objects.length ∧ o = .object n

/-- From these references only such references are reached. -/
structure Encloses (w : World) (S : Opaque → Prop) : Prop where
  inside : ∀ o x, S o → w.inside? o = some (.ok x) → x.Refers S
  solid : ∀ o, S o → w.inside? o ≠ none → w.Solid o

/-- The number of a cell or of an object among all of them. -/
def solidNumber (w : World) : Opaque → Nat
  | .place (.cell n) => n
  | .object n => w.cells.length + n
  | _ => 0

theorem length_solids (w : World) {os : List Opaque} (hn : os.Nodup) (h : ∀ o ∈ os, w.Solid o) :
    os.length ≤ w.cells.length + w.objects.length := by
  rw [← List.length_map w.solidNumber]
  apply length_le_of_nodup
  · apply hn.map_on
    intro a ha b hb hab
    rcases h a ha with ⟨n, hn, rfl⟩ | ⟨n, hn, rfl⟩ <;>
      rcases h b hb with ⟨m, hm, rfl⟩ | ⟨m, hm, rfl⟩ <;>
      simp only [solidNumber] at hab
    · rw [hab]
    · omega
    · omega
    · rw [Nat.add_left_cancel hab]
  · intro n hn
    obtain ⟨o, ho, rfl⟩ := List.mem_map.mp hn
    rcases h o ho with ⟨k, hk, rfl⟩ | ⟨k, hk, rfl⟩ <;> simp only [solidNumber] <;> omega

theorem count_lt (w : World) : w.cells.length + w.objects.length < w.referenceCount := by
  unfold referenceCount
  omega

variable {w v : World}

/-- What is followed among such references depends neither on references around it that are not of
them, nor on the depth that is left. -/
theorem follow_congr (hS : w.Encloses S) (hv : v.Encloses S)
    (hin : ∀ o, S o → v.inside? o = w.inside? o) (again : Value → Except Fault Value)
    {around around' : List Opaque} (ha : ∀ o ∈ around, ¬ S o) (ha' : ∀ o ∈ around', ¬ S o)
    (depth depth' : Nat) (inner : List Opaque) (hn : inner.Nodup)
    (hi : ∀ o ∈ inner, S o ∧ w.inside? o ≠ none)
    (hd : w.cells.length + w.objects.length < depth + inner.length)
    (hd' : v.cells.length + v.objects.length < depth' + inner.length)
    (o : Opaque) (ho : S o) :
    follow w.inside? again depth (inner ++ around) o =
      follow v.inside? again depth' (inner ++ around') o := by
  induction depth generalizing depth' inner o with
  | zero =>
    have := w.length_solids hn fun o hm => hS.solid o (hi o hm).1 (hi o hm).2
    omega
  | succ depth ih =>
    cases depth' with
    | zero =>
      have := v.length_solids hn fun o hm =>
        hv.solid o (hi o hm).1 (hin o (hi o hm).1 ▸ (hi o hm).2)
      omega
    | succ depth' =>
      have hc : (inner ++ around).contains o = (inner ++ around').contains o := by
        rw [Bool.eq_iff_iff, List.contains_iff_mem, List.contains_iff_mem, List.mem_append,
          List.mem_append]
        exact ⟨fun h => h.imp_right fun hm => absurd ho (ha o hm),
          fun h => h.imp_right fun hm => absurd ho (ha' o hm)⟩
      unfold follow
      rw [hin o ho, ← hc]
      cases hx : w.inside? o with
      | none => rfl
      | some contents =>
        dsimp only
        by_cases hm : (inner ++ around).contains o = true
        · simp only [hm, if_true]
        · have hnew : o ∉ inner := fun h =>
            hm (List.contains_iff_mem.mpr (List.mem_append_left _ h))
          simp only [hm]
          cases contents with
          | error f => rfl
          | ok x =>
            refine expand_congr (fun p hp => ?_) (hS.inside o x ho hx)
            refine ih depth' (o :: inner) (List.nodup_cons.mpr ⟨hnew, hn⟩) ?_ ?_ ?_ p hp
            · intro q hq
              rcases List.mem_cons.mp hq with rfl | hq
              · exact ⟨ho, by simp [hx]⟩
              · exact hi q hq
            · rw [List.length_cons]
              omega
            · rw [List.length_cons]
              omega

/-- A reference that is not reached from what is behind it exposes what that exposes. -/
theorem Encloses.exposed_reference (hS : w.Encloses S) {o : Opaque} (ho : ¬ S o) {x : Value}
    (hi : w.inside? o = some (.ok x)) (hx : x.Refers S) :
    w.exposed (.opaqueRef o) = w.exposed x := by
  have hdepth : w.referenceCount = w.referenceCount - 1 + 1 := by
    unfold referenceCount
    omega
  have hcount : w.cells.length + w.objects.length < w.referenceCount - 1 := by
    unfold referenceCount
    omega
  unfold exposed
  rw [expand, hdepth, follow_succ _ _ _ _ _ hi (by simp), ← hdepth]
  exact expand_congr (fun p hp => follow_congr hS hS (fun _ _ => rfl) _ (by simpa using ho)
    (by simp) _ _ [] List.nodup_nil (by simp) hcount w.count_lt p hp) hx

/-! ## Plain data -/

section Data

variable {C : Nat → Prop}

theorem HoldsData.encloses (hd : w.HoldsData C) : w.Encloses fun o => o.Within (w.data C) where
  inside o x ho hx := by
    cases o with
    | place p =>
      cases p with
      | cell n =>
        obtain ⟨y, hy, hw⟩ := hd n ho
        cases hx
        show ((w.cells[n]?).getD .null).Refers _
        rw [hy]
        exact hw.refers fun _ => id
      | attributes => exact ho.elim
      | shown => exact ho.elim
    | object => exact ho.elim
    | _ => cases hx
  solid o ho hx := by
    cases o with
    | place p =>
      cases p with
      | cell n => exact .inl ⟨n, hd.lt ho, rfl⟩
      | attributes => exact ho.elim
      | shown => exact ho.elim
    | object => exact ho.elim
    | _ => exact absurd rfl hx

theorem bare_below (w : World) (C : Nat → Prop) : w.bare.Below (w.data C) :=
  ⟨fun _ hn => hn.elim, fun _ hr => hr, Nat.le_refl _⟩

/-- What data exposes holds no references to cells. -/
theorem HoldsData.exposed (hd : w.HoldsData C) {x y : Value} (hx : x.Within (w.data C))
    (hy : w.exposed x = .ok y) : y.Within w.bare := by
  have h := Retains.refl w C
  have hout := (Link.exposed_rename (h.linked hd) (h.within hd hx)).2 y hy
  have below : (h.link.extent w).flat.Below w.bare :=
    ⟨fun _ hn => hn, fun r hr => absurd (hr.1.resolve_left id) (Nat.not_le_of_lt hr.2),
      Nat.le_refl _⟩
  exact hout.mono below

theorem Retains.exposed (h : w.Retains v C) (hd : w.HoldsData C) {x : Value}
    (hx : x.Within (w.data C)) : v.exposed x = w.exposed x := by
  have hout := (Link.exposed_rename (h.linked hd) (h.within hd hx)).1
  rw [show x.rename h.link.ρ = x from h.rename hd hx] at hout
  rw [hout]
  cases hy : w.exposed x with
  | error f => rfl
  | ok y =>
    have hw := (hd.exposed hx hy).mono (w.bare_below C)
    exact congrArg Except.ok (h.rename hd hw)

theorem Retains.exposedItems (h : w.Retains v C) (hd : w.HoldsData C) {xs : List Value}
    (hx : Value.WithinItems (w.data C) xs) : v.exposedItems xs = w.exposedItems xs := by
  induction xs with
  | nil => rw [exposedItems_nil, exposedItems_nil]
  | cons x xs ih => rw [exposedItems_cons, exposedItems_cons, h.exposed hd hx.1, ih hx.2]

theorem Retains.exposedRows (h : w.Retains v C) (hd : w.HoldsData C) {rows : List (Value × Value)}
    (hx : Value.WithinRows (w.data C) rows) : v.exposedRows rows = w.exposedRows rows := by
  induction rows with
  | nil => rw [exposedRows_nil, exposedRows_nil]
  | cons row rows ih =>
    obtain ⟨k, x⟩ := row
    rw [exposedRows_cons, exposedRows_cons, h.exposed hd hx.1.1, h.exposed hd hx.1.2, ih hx.2]

theorem Gains.retains (hg : w.Gains C v) (hd : w.HoldsData C) : w.Retains v C :=
  hg.later.retains hd fun _ _ => id

theorem Gains.refl (hd : w.HoldsData C) : w.Gains C w where
  later := Later.refl w _
  data n hn := by
    have hc : C n := hn.1.resolve_right (Nat.not_le_of_lt hn.2)
    obtain ⟨x, hx, hw⟩ := hd n hc
    exact ⟨x, hx, hw.mono (w.data_mono fun _ hk => ⟨.inl hk, hd.lt hk⟩)⟩

theorem Gains.trans {u : World} (h : w.Gains C v) (h' : v.Gains (w.gained C v) u) :
    w.Gains C u ∧ (u.data (v.gained (w.gained C v) u)).Below (u.data (w.gained C u)) := by
  have hiff (n : Nat) (hn : v.gained (w.gained C v) u n) : w.gained C u n := by
    refine ⟨?_, hn.2⟩
    rcases hn.1 with hg | hle
    · exact hg.1
    · exact .inr (Nat.le_trans h.later.cells_le hle)
  have below : (u.data (v.gained (w.gained C v) u)).Below (u.data (w.gained C u)) :=
    u.data_mono hiff
  refine ⟨⟨h.later.trans h'.later fun _ hn _ => hn, ?_⟩, below⟩
  intro n hn
  have hback : v.gained (w.gained C v) u n := by
    refine ⟨?_, hn.2⟩
    by_cases hlt : n < v.cells.length
    · exact .inl ⟨hn.1, hlt⟩
    · exact .inr (Nat.le_of_not_lt hlt)
  obtain ⟨x, hx, hw⟩ := h'.data n hback
  exact ⟨x, hx, hw.mono below⟩

theorem Gains.withCell (hd : w.HoldsData C) {x : Value} (hx : x.Within (w.data C)) :
    w.Gains C (w.withCell x) ∧
      (cellValue w.cells.length).Within ((w.withCell x).data (w.gained C (w.withCell x))) ∧
      (w.withCell x).exposed (cellValue w.cells.length) = w.exposed x := by
  have hlater : w.Later (w.withCell x) (fun _ => False) := (Later.refl w _).newCell x
  have hlen : (w.withCell x).cells.length = w.cells.length + 1 := by simp [World.withCell]
  have hnew : (w.withCell x).cells[w.cells.length]? = some x := by simp [World.withCell]
  have hr := hlater.retains hd fun _ _ => id
  have hd' := hr.holdsData hd
  have hx' := hx.mono hr.data_below
  have below : ((w.withCell x).data C).Below ((w.withCell x).data (w.gained C (w.withCell x))) :=
    World.data_mono _ fun n hn => ⟨.inl hn, hd'.lt hn⟩
  refine ⟨⟨hlater, ?_⟩, ⟨.inr (Nat.le_refl _), by omega⟩, ?_⟩
  · intro n hn
    rcases hn.1 with hc | hle
    · obtain ⟨y, hy, hw⟩ := hd' n hc
      exact ⟨y, hy, hw.mono below⟩
    · have hlast : n = w.cells.length := by
        have := hn.2
        omega
      rw [hlast]
      exact ⟨x, hnew, hx'.mono below⟩
  · rw [← hr.exposed hd hx]
    refine hd'.encloses.exposed_reference (o := .place (.cell w.cells.length)) ?_ ?_
      (hx'.refers fun _ => id)
    · intro hc
      exact absurd (hd.lt hc) (Nat.lt_irrefl _)
    · show some (Except.ok (((w.withCell x).cells[w.cells.length]?).getD .null)) = _
      rw [hnew]
      rfl

/-- A further cell for a container of the data that was gained. -/
theorem Gains.addCell (hg : w.Gains C v) {x : Value} (hx : x.Within (v.data (w.gained C v))) :
    w.Gains C (v.withCell x) ∧
      (v.data (w.gained C v)).Below ((v.withCell x).data (w.gained C (v.withCell x))) := by
  obtain ⟨hcell, _, _⟩ := Gains.withCell hg.data hx
  obtain ⟨hall, below⟩ := hg.trans hcell
  exact ⟨hall, (hcell.below hg.data).trans below⟩

end Data

end World

namespace Run

open World

variable {w v : World} {C : Nat → Prop}

/-- A value that was made of another one: plain data that exposes the same. -/
structure Shares (w v : World) (C : Nat → Prop) (x z : Value) : Prop where
  gains : w.Gains C v
  data : z.Within (v.data (w.gained C v))
  exposed : v.exposed z = w.exposed x

theorem Shares.refl (hd : w.HoldsData C) {x : Value} (hx : x.Within (w.data C)) :
    Shares w w C x x :=
  ⟨.refl hd, hx.mono ((Gains.refl hd).below hd), rfl⟩

theorem exec_keptData {x z : Value} (hg : w.Gains C v)
    (hz : z.Within (v.data (w.gained C v))) (he : v.exposed z = w.exposed x) :
    ∃ y u, (kept z).exec v = (.ok y, u) ∧ Shares w u C x y := by
  obtain ⟨hg', hz', he'⟩ := Gains.withCell hg.data hz
  obtain ⟨hg'', below⟩ := hg.trans hg'
  exact ⟨_, _, rfl, hg'', hz'.mono below, he'.trans he⟩

mutual

/-- Plain data is shared as plain data that exposes the same. -/
theorem exec_share {w : World} {C : Nat → Prop} (hd : w.HoldsData C) {x : Value} (hx : x.Within (w.data C)) :
    ∃ z v, (share x).exec w = (.ok z, v) ∧ Shares w v C x z := by
  cases x with
  | list xs =>
    obtain ⟨zs, v, hrun, hg, hz, he⟩ := exec_shareItems hd hx
    rw [share, exec_bind, hrun]
    exact exec_keptData hg hz (by rw [exposed_list, exposed_list, he])
  | set xs =>
    obtain ⟨zs, v, hrun, hg, hz, he⟩ := exec_shareItems hd hx
    rw [share, exec_bind, hrun]
    exact exec_keptData hg hz (by rw [exposed_set, exposed_set, he])
  | dict rows =>
    obtain ⟨zs, v, hrun, hg, hz, he⟩ := exec_shareRows hd hx
    rw [share, exec_bind, hrun]
    exact exec_keptData hg hz (by rw [exposed_dict, exposed_dict, he])
  | tuple xs =>
    obtain ⟨zs, v, hrun, hg, hz, he⟩ := exec_shareItems hd hx
    rw [share, exec_bind, hrun]
    exact ⟨_, _, rfl, hg, hz, by rw [exposed_tuple, exposed_tuple, he]⟩
  | mapping rows =>
    obtain ⟨zs, v, hrun, hg, hz, he⟩ := exec_shareRows hd hx
    rw [share, exec_bind, hrun]
    exact ⟨_, _, rfl, hg, hz, by rw [exposed_mapping, exposed_mapping, he]⟩
  | record => exact hx.elim
  | _ => exact ⟨_, _, rfl, Shares.refl hd hx⟩

theorem exec_shareItems {w : World} {C : Nat → Prop} (hd : w.HoldsData C) {xs : List Value}
    (hx : Value.WithinItems (w.data C) xs) :
    ∃ zs v, (shareItems xs).exec w = (.ok zs, v) ∧ w.Gains C v ∧
      Value.WithinItems (v.data (w.gained C v)) zs ∧ v.exposedItems zs = w.exposedItems xs := by
  cases xs with
  | nil => exact ⟨[], w, rfl, .refl hd, trivial, rfl⟩
  | cons x xs =>
    obtain ⟨z, v, hfirst, hs⟩ := exec_share hd hx.1
    have hrest : Value.WithinItems (v.data (w.gained C v)) xs := hx.2.mono (hs.gains.below hd)
    obtain ⟨zs, u, hrun, hg, hz, he⟩ := exec_shareItems hs.gains.data hrest
    obtain ⟨hg', below⟩ := hs.gains.trans hg
    have hkept := hs.data.mono (hg.below hs.gains.data)
    have hfirst' := (hg.retains hs.gains.data).exposed hs.gains.data hs.data
    refine ⟨z :: zs, u, ?_, hg', ⟨hkept.mono below, hz.mono below⟩, ?_⟩
    · rw [shareItems, exec_bind, hfirst]
      dsimp only
      rw [exec_bind, hrun]
      rfl
    · rw [exposedItems_cons, exposedItems_cons, hfirst', hs.exposed, he,
        (hs.gains.retains hd).exposedItems hd hx.2]

theorem exec_shareRows {w : World} {C : Nat → Prop} (hd : w.HoldsData C) {rows : List (Value × Value)}
    (hx : Value.WithinRows (w.data C) rows) :
    ∃ zs v, (shareRows rows).exec w = (.ok zs, v) ∧ w.Gains C v ∧
      Value.WithinRows (v.data (w.gained C v)) zs ∧ v.exposedRows zs = w.exposedRows rows := by
  cases rows with
  | nil => exact ⟨[], w, rfl, .refl hd, trivial, rfl⟩
  | cons row rows =>
    obtain ⟨k, x⟩ := row
    obtain ⟨z, v, hfirst, hs⟩ := exec_share hd hx.1.2
    have hrest : Value.WithinRows (v.data (w.gained C v)) rows := hx.2.mono (hs.gains.below hd)
    obtain ⟨zs, u, hrun, hg, hz, he⟩ := exec_shareRows hs.gains.data hrest
    obtain ⟨hg', below⟩ := hs.gains.trans hg
    have hkept := hs.data.mono (hg.below hs.gains.data)
    have hfirst' := (hg.retains hs.gains.data).exposed hs.gains.data hs.data
    refine ⟨(k, z) :: zs, u, ?_, hg', ⟨⟨hx.1.1.mono (hg'.below hd), hkept.mono below⟩,
      hz.mono below⟩, ?_⟩
    · rw [shareRows, exec_bind, hfirst]
      dsimp only
      rw [exec_bind, hrun]
      rfl
    · rw [exposedRows_cons, exposedRows_cons, (hg'.retains hd).exposed hd hx.1.1, hfirst',
        hs.exposed, he, (hs.gains.retains hd).exposedRows hd hx.2]

end

theorem keys_shareRows {rows others : List (Value × Value)} {w v : World}
    (h : (shareRows rows).exec w = (.ok others, v)) :
    others.map Prod.fst = rows.map Prod.fst := by
  induction rows generalizing w others with
  | nil =>
    cases h
    rfl
  | cons row rows ih =>
    obtain ⟨k, x⟩ := row
    obtain ⟨y, _, _, h⟩ := of_exec_bind h
    obtain ⟨rest, _, hrest, h⟩ := of_exec_bind h
    cases h
    exact congrArg (k :: ·) (ih hrest)

theorem exists_named {rows : List (Value × Value)} {keys : List String}
    (h : rows.map Prod.fst = keys.map Value.str) :
    ∃ named : Named, rows = named.map (fun row => (.str row.1, row.2)) ∧ Table.keys named = keys := by
  induction rows generalizing keys with
  | nil =>
    cases keys with
    | nil => exact ⟨[], rfl, rfl⟩
    | cons => cases h
  | cons row rows ih =>
    cases keys with
    | nil => cases h
    | cons key keys =>
      obtain ⟨hkey, hrest⟩ := List.cons.inj h
      obtain ⟨named, rfl, rfl⟩ := ih hrest
      obtain ⟨k, x⟩ := row
      obtain rfl : k = .str key := hkey
      exact ⟨(key, x) :: named, rfl, rfl⟩

/-- Rows of data are shared as rows of data under the same keys. -/
theorem exec_shareNamed {w : World} (hd : w.HoldsData C) {rows : Named}
    (hx : (Value.ofRows rows).Within (w.data C)) :
    ∃ named u, (share (.ofRows rows)).exec w =
        (.ok (cellValue u.cells.length), u.withCell (.ofRows named)) ∧
      Table.keys named = Table.keys rows ∧ w.Gains C u ∧
      (Value.ofRows named).Within (u.data (w.gained C u)) ∧
      u.exposed (.ofRows named) = w.exposed (.ofRows rows) := by
  obtain ⟨zs, u, hrun, hg, hz, he⟩ := exec_shareRows hd hx
  have hkeys := keys_shareRows hrun
  rw [show (rows.map fun row => (Value.str row.1, row.2)).map Prod.fst =
    (Table.keys rows).map Value.str by simp [Table.keys]] at hkeys
  obtain ⟨named, rfl, hnamed⟩ := exists_named hkeys
  refine ⟨named, u, ?_, hnamed, hg, hz, ?_⟩
  · show Run.exec (do kept (.dict (← shareRows (rows.map fun row => (Value.str row.1, row.2))))) w = _
    rw [exec_bind, hrun]
    rfl
  · show World.exposed u (.dict _) = World.exposed w (.dict _)
    rw [exposed_dict, exposed_dict, he]

theorem share_texts (names : List String) (w : World) :
    (share (.list (names.map .str))).exec w =
      (.ok (cellValue w.cells.length), w.withCell (.list (names.map .str))) := by
  have items : shareItems (names.map .str) = pure (names.map .str) := by
    induction names with
    | nil => rfl
    | cons name names ih =>
      rw [List.map_cons, shareItems, ih]
      rfl
  show Run.exec (do kept (.list (← shareItems (names.map .str)))) w = _
  rw [items]
  rfl

end Run

end Toolwright
