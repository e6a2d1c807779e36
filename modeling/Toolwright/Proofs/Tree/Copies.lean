import Toolwright.Proofs.Tree.Declarations
/-!
# Copies of data
A dictionary that is made of data is a new cell of data, and so is a list: they get the rows, the pairs
or the items of what they are made of. Where that fails, nothing but data was made.
-/

namespace Toolwright

set_option autoImplicit false

namespace World

variable {w v : World} {C : Nat → Prop} {n : Nat} {x y : Value}

/-! ## What data is -/

theorem HoldsData.followed (hd : w.HoldsData C) (hx : x.Within (w.data C)) :
    (w.followed x).Within (w.data C) := by
  cases x with
  | opaqueRef o =>
    cases o with
    | place p =>
      cases p with
      | cell n =>
        obtain ⟨y, hy, hw⟩ := hd n hx
        rw [show w.followed (.opaqueRef (.place (.cell n))) = y from followed_cell hy]
        exact hw
      | «attributes» => exact hx.elim
      | shown => exact hx.elim
    | _ => exact hx
  | _ => exact hx

theorem classOf_data (hx : x.Within (w.data C)) : w.classOf x = .builtIn (w.followed x).kind := by
  cases x with
  | opaqueRef o =>
    cases o with
    | place p =>
      cases p with
      | cell n => rfl
      | «attributes» => exact hx.elim
      | shown => exact hx.elim
    | object => exact hx.elim
    | routine => exact hx.elim
    | _ => rfl
  | record => exact hx.elim
  | _ => rfl

def keyless : List Kind := [.object, .null, .bool, .int, .float, .text, .bytes, .list, .tuple, .set,
  .frozenset, .token, .mute]

theorem kind_mem_keyless (hx : x.Within (w.data C)) (hn : x.rows? = none) : x.kind ∈ keyless := by
  cases x with
  | dict => cases hn
  | mapping => cases hn
  | record => exact hx.elim
  | opaqueRef o =>
    cases o with
    | place p =>
      cases p with
      | cell => exact List.mem_cons_self
      | «attributes» => exact hx.elim
      | shown => exact hx.elim
    | plain => exact List.mem_cons_self
    | token => simp [Value.kind, keyless]
    | mute => simp [Value.kind, keyless]
    | _ => exact hx.elim
  | _ => simp [Value.kind, keyless]

theorem find?_keys {k : Kind} (hk : k ∈ keyless) : w.find? (.builtIn k) "keys" = none := by
  have above : ∀ k ∈ keyless, ∀ k' ∈ k :: k.above, k'.attribute? "keys" = none := by decide
  rw [find?_builtIn, List.findSome?_eq_none_iff]
  intro k' hk'
  rw [above k hk k' hk']
  rfl

theorem items_within {e : Extent} {xs : List Value} (hx : x.Within e) (h : x.items = .ok xs) :
    ∀ y ∈ xs, y.Within e := by
  cases x with
  | list | tuple | set | frozenset =>
    cases h
    exact Value.withinItems_iff.mp hx
  | str s =>
    cases h
    intro y hy
    obtain ⟨c, -, rfl⟩ := List.mem_map.mp hy
    trivial
  | bytes bs =>
    cases h
    intro y hy
    obtain ⟨b, -, rfl⟩ := List.mem_map.mp hy
    trivial
  | dict rows | mapping rows =>
    cases h
    intro y hy
    obtain ⟨row, hr, rfl⟩ := List.mem_map.mp hy
    exact (Value.withinRows_iff.mp hx row hr).1
  | _ => cases h

/-! ## Dictionaries that are filled -/

/-- A new cell of a dictionary in a world that gained nothing else than data, which is `e` then. -/
structure Filling (w : World) (C : Nat → Prop) (n : Nat) (e : Extent) (v : World) : Prop where
  gains : w.Gains C v
  extras : v.extras = []
  fresh : w.cells.length ≤ n
  held : ∃ rows, v.cells[n]? = some (.dict rows)
  extent : v.data (w.gained C v) = e

variable {e : Extent}

theorem Filling.put (h : w.Filling C n e v) {rows : List (Value × Value)}
    (hr : Value.RowsWithin e rows) : w.Filling C n e (v.put n (.dict rows)) := by
  obtain ⟨old, hold⟩ := h.held
  have hlt := (List.getElem?_eq_some_iff.mp hold).1
  have hgained : w.gained C (v.put n (.dict rows)) = w.gained C v := by
    unfold gained World.put
    dsimp only
    rw [List.length_set]
  have hextent : (v.put n (.dict rows)).data (w.gained C (v.put n (.dict rows))) = e := by
    rw [hgained]
    exact h.extent
  refine ⟨⟨h.gains.later.put (.inr h.fresh) _, ?_⟩, h.extras, h.fresh,
    ⟨rows, List.getElem?_set_self hlt⟩, hextent⟩
  intro k hk
  rw [hextent]
  by_cases hkn : n = k
  · subst hkn
    exact ⟨_, List.getElem?_set_self hlt, Value.withinRows_iff.mpr hr⟩
  · obtain ⟨x, hx, hw⟩ := h.gains.data k (hgained ▸ hk)
    exact ⟨x, (List.getElem?_set_ne hkn).trans hx, h.extent ▸ hw⟩

end World

namespace Run

variable {α β : Type} {I : World → Prop} {Q : α → Prop} {S : β → Prop}

/-- A computation that keeps an invariant of worlds, also where it fails, and gives what meets a
condition. -/
def Keeps (I : World → Prop) (Q : α → Prop) (r : Run α) : Prop :=
  ∀ v, I v → I (r.exec v).2 ∧ ∀ a, (r.exec v).1 = .ok a → Q a

theorem Keeps.pure {a : α} (h : Q a) : Keeps I Q (Pure.pure a) := by
  intro v hv
  exact ⟨hv, fun _ he => (Except.ok.inj he) ▸ h⟩

theorem Keeps.throw (f : Fault) : Keeps I Q (throw f : Run α) :=
  fun _ hv => ⟨hv, fun _ he => nomatch he⟩

theorem Keeps.bind {r : Run α} {k : α → Run β} (h : Keeps I Q r) (hk : ∀ a, Q a → Keeps I S (k a)) :
    Keeps I S (r >>= k) := by
  intro v hv
  have hr := h v hv
  rw [exec_bind]
  generalize r.exec v = out at hr
  obtain ⟨result, u⟩ := out
  cases result with
  | ok a => exact hk a (hr.2 a rfl) u hr.1
  | error f => exact ⟨hr.1, fun _ he => nomatch he⟩

theorem Keeps.mapIdxM {γ : Type} {f : Nat → γ → Run α} {xs : List γ}
    (h : ∀ i, ∀ x ∈ xs, Keeps I (fun _ => True) (f i x)) : Keeps I (fun _ => True) (xs.mapIdxM f) := by
  have go (done : Array α) : Keeps I (fun _ => True) (List.mapIdxM.go f xs done) := by
    induction xs generalizing done with
    | nil => exact .pure trivial
    | cons x xs ih =>
      exact (h _ x List.mem_cons_self).bind fun a _ =>
        ih (fun i y hy => h i y (List.mem_cons_of_mem _ hy)) _
  exact go #[]

end Run

namespace Machine

open World Run

variable {w v : World} {C : Nat → Prop} {n : Nat} {x k : Value} {e : Extent}

theorem exec_iterateData (m : Machine) (hx : x.Within (w.data C)) :
    (m.iterate x).exec w = ((w.followed x).items, w) := by
  have special (name : String) : w.special? x name = none :=
    special?_builtIn (classOf_data hx) name
  unfold iterate
  rw [exec_bind, exec_world]
  dsimp only
  rw [special, special]
  show (Run.iterate x).exec w = _
  unfold Run.iterate
  rw [exec_bind, exec_world]
  dsimp only
  split
  · exact hx.elim
  · exact hx.elim
  · exact exec_lift _ w

theorem exec_hasKeys (m : Machine) (he : w.extras = []) (hd : w.HoldsData C)
    (hx : x.Within (w.data C)) (hn : (w.followed x).rows? = none) :
    (m.has x "keys").exec w = (.ok false, w) := by
  have hfind : w.find? (w.classOf x) "keys" = none := by
    rw [classOf_data hx]
    exact find?_keys (kind_mem_keyless (hd.followed hx) hn)
  have special (name : String) : w.special? x name = none :=
    special?_builtIn (classOf_data hx) name
  have reached : (m.reach x "keys").exec w = (.error (w.noAttribute x "keys"), w) := by
    unfold reach
    rw [exec_bind, exec_world]
    dsimp only
    rw [special, special]
    show (plainReach x "keys").exec w = _
    have accessed : (plainAccess x "keys").exec w = (.ok none, w) := by
      unfold plainAccess
      rw [exec_bind, exec_world]
      dsimp only
      rw [hfind]
      cases x with
      | opaqueRef o =>
        have unset : w.setAttribute? (.opaqueRef o) "keys" = none := by
          unfold setAttribute? attributeCell?
          rw [he]
          cases o with
          | object => exact hx.elim
          | _ => rfl
        cases o with
        | object => exact hx.elim
        | routine => exact hx.elim
        | cls => exact hx.elim
        | _ =>
          dsimp only
          rw [unset]
          rfl
      | _ => rfl
    unfold plainReach
    rw [exec_bind, accessed]
    cases x with
    | opaqueRef o =>
      cases o with
      | cls => exact hx.elim
      | _ => rfl
    | _ => rfl
  rw [has_eq, exec_tryCatch, exec_bind, reached]
  have hf : (w.noAttribute x "keys").isAboutAttribute = true := by
    unfold noAttribute
    split <;> rfl
  dsimp only
  rw [if_pos hf]
  rfl

theorem keeps_setRow (m : Machine) (hk : k.Within e) (hx : x.Within e) :
    Keeps (w.Filling C n e) (fun _ => True) (m.plainOperation "__setitem__" (cellValue n) [k, x]) := by
  intro v hv
  refine ⟨?_, fun _ _ => trivial⟩
  obtain ⟨rows, hrows⟩ := hv.held
  have taken : ([k, x].mapM (m.taken "__setitem__" (.dict rows))).exec v = (.ok [k, x], v) :=
    exec_mapM_taken m (by decide) (by decide) (by decide) (.inl ⟨rows, rfl⟩) [k, x] v
  have written : Value.operation v.sameInside v.marks "__setitem__" (.dict rows) [k, x] =
      if !k.hashable then none else
        some (.ok ⟨.null, some (.dict (Table.insertBy Value.same k x rows))⟩) := rfl
  have held : Value.RowsWithin e rows := by
    obtain ⟨y, hy, hw⟩ := hv.gains.data n ⟨.inr hv.fresh, (List.getElem?_eq_some_iff.mp hrows).1⟩
    cases hrows.symm.trans hy
    rw [hv.extent] at hw
    exact Value.withinRows_iff.mp hw
  by_cases hfit : v.fitsKeys "__setitem__" (.dict rows) [k, x] = true
  · by_cases hh : k.hashable = true
    · rw [if_neg (by rw [hh]; decide)] at written
      rw [exec_plainOperation m "__setitem__" [k, x] hrows (by decide) (by decide) hfit taken written
        (by decide)]
      exact hv.put (Value.within_insertBy hk hx held)
    · rw [if_pos (by simpa using hh)] at written
      have failed : (kindOperationOn "__setitem__" (cellValue n) (.dict rows) [k, x]).exec v =
          (.error .mismatch, v) := by
        unfold kindOperationOn
        rw [exec_bind, exec_world]
        dsimp only
        rw [written]
        rfl
      have untold : ([k, x].any v.tellsIndex) = false := by
        rw [← hv.extent] at hk hx
        have told {y : Value} (hy : y.Within (v.data (w.gained C v))) : v.tellsIndex y = false := by
          unfold tellsIndex
          rw [special?_builtIn (classOf_data hy)]
          rfl
        simp [told hk, told hx]
      unfold plainOperation
      rw [exec_bind, exec_world]
      dsimp only
      rw [if_neg (by decide), exec_bind, exec_lookCell hrows]
      dsimp only
      rw [if_neg (by rw [hfit]; decide), exec_bind, taken]
      dsimp only
      rw [exec_bind, exec_tryCatch, failed]
      dsimp only
      rw [if_neg (by rw [untold]; decide)]
      exact hv
  · unfold plainOperation
    rw [exec_bind, exec_world]
    dsimp only
    rw [if_neg (by decide), exec_bind, exec_lookCell hrows]
    dsimp only
    rw [if_pos (by simpa using hfit)]
    exact hv

/-- The rows of data are written into a dictionary, or its pairs one after another. -/
theorem keeps_merge (m : Machine) (hx : x.Within e) :
    Keeps (w.Filling C n e) (fun _ => True) (kindOperation.merge m (cellValue n) x) := by
  intro v hv
  have hxv : x.Within (v.data (w.gained C v)) := hv.extent ▸ hx
  have hin : (v.followed x).Within e := hv.extent ▸ hv.gains.data.followed hxv
  have iterated {y : Value} (hy : y.Within e) :
      Keeps (w.Filling C n e) (fun ys => ∀ z ∈ ys, z.Within e) (m.iterate y) := by
    intro u hu
    have hyu : y.Within (u.data (w.gained C u)) := hu.extent ▸ hy
    rw [exec_iterateData m hyu]
    refine ⟨hu, fun ys hys => items_within ?_ hys⟩
    exact hu.extent ▸ hu.gains.data.followed hyu
  have written (rows : List (Value × Value)) (hr : Value.RowsWithin e rows) :
      w.Filling C n e ((m.plainOperation "update" (cellValue n) [.dict rows]).exec v).2 := by
    obtain ⟨old, hold⟩ := hv.held
    have updated : Value.operation v.sameInside v.marks "update" (.dict old) [.dict rows] =
        some (.ok ⟨.null, some (.dict
          (rows.foldl (fun t row => Table.insertBy Value.same row.1 row.2 t) old))⟩) := rfl
    rw [exec_plainOperation m "update" [.dict rows] hold (by decide) (by decide) rfl rfl updated
      (by decide)]
    refine hv.put ?_
    have held : Value.RowsWithin e old := by
      obtain ⟨y, hy, hw⟩ := hv.gains.data n ⟨.inr hv.fresh, (List.getElem?_eq_some_iff.mp hold).1⟩
      cases hold.symm.trans hy
      rw [hv.extent] at hw
      exact Value.withinRows_iff.mp hw
    clear updated hold
    induction rows generalizing old with
    | nil => exact held
    | cons row rows ih =>
      refine ih (fun r hm => hr r (List.mem_cons_of_mem _ hm)) _ ?_
      have hrow := hr row List.mem_cons_self
      exact Value.within_insertBy hrow.1 hrow.2 held
  refine ⟨?_, fun _ _ => trivial⟩
  cases hrows : (v.followed x).rows? with
  | some rows =>
    have hr := Value.within_rows hin hrows
    unfold kindOperation.merge
    rw [exec_bind, exec_look]
    cases hf : v.followed x with
    | dict rows' | mapping rows' =>
      rw [hf] at hrows
      cases hrows
      exact written rows hr
    | _ =>
      rw [hf] at hrows
      cases hrows
  | none =>
    unfold kindOperation.merge
    rw [exec_bind, exec_look]
    dsimp only
    split
    · rename_i rows hr
      rw [hr] at hrows
      cases hrows
    · rename_i rows hr
      rw [hr] at hrows
      cases hrows
    rw [exec_bind, exec_hasKeys m hv.extras hv.gains.data hxv hrows]
    dsimp only
    rw [if_neg Bool.false_ne_true]
    refine (Keeps.bind (S := fun _ => True) (iterated hx) (fun ys hys => ?_) v hv).1
    refine Keeps.bind (.mapIdxM fun i pair hp => ?_) fun _ _ => .pure trivial
    refine (iterated (hys pair hp)).bind fun parts hparts => ?_
    split
    · rename_i k x
      exact keeps_setRow m (hparts k (by simp)) (hparts x (by simp))
    · exact .throw _

/-- A dictionary that is made of data is a new cell of data. Where that fails, nothing but data was
made. -/
theorem exec_copyOfRows (k : Nat) (he : w.extras = []) (hd : w.HoldsData C)
    (hx : x.Within (w.data C)) {z : Except Fault Value}
    (hr : ((nested (k + 1)).copyRows x).exec w = (z, v)) :
    w.Gains C v ∧ ∀ y, z = .ok y → y = cellValue w.cells.length ∧
      y.Within (v.data (w.gained C v)) := by
  obtain ⟨hg, hcell, -⟩ := Gains.withCell (x := .dict []) hd trivial
  have start : w.Filling C w.cells.length ((w.withCell (.dict [])).data
      (w.gained C (w.withCell (.dict [])))) (w.withCell (.dict [])) :=
    ⟨hg, he, Nat.le_refl _, ⟨[], getElem?_withCell ..⟩, rfl⟩
  have hplace : Table.find? (w.withCell (.dict [])).extras (.place (.cell w.cells.length)) = none := by
    show Table.find? w.extras _ = none
    rw [he]
    rfl
  have updates {e : Extent} {y : Value} (hy : y.Within e) :
      Keeps (w.Filling C w.cells.length e) (fun _ => True)
        ((nested k).kindOperation "update" (cellValue w.cells.length) [y]) := by
    intro u hu
    obtain ⟨rows, hrows⟩ := hu.held
    unfold kindOperation
    rw [exec_bind, exec_world]
    dsimp only
    rw [if_neg (by decide), exec_bind, exec_lookCell hrows]
    exact keeps_merge _ hy u hu
  have made : ((nested (k + 1)).copyRows x).exec w = Run.exec (do
      let _ ← (do
        let _ ← (nested k).kindOperation "update" (cellValue w.cells.length) [x]
        (nested k).kindOperation "update" (cellValue w.cells.length) [.ofRows []])
      return cellValue w.cells.length) (w.withCell (.dict [])) := by
    show Run.exec (do
      let made ← Run.kept (.dict [])
      let _ ← (nested (k + 1)).send made "update" [x] []
      return made) w = _
    rw [exec_bind, exec_kept]
    dsimp only
    unfold send
    rw [exec_bind, exec_bind, exec_reachOperation (k := .dict) _ (getElem?_withCell ..) hplace rfl
      (by decide) (by decide), exec_bind]
    rfl
  have filled := (updates (hx.mono (hg.below hd))).bind (S := fun _ => True) fun _ _ =>
    updates (y := .ofRows []) trivial
  have filled := (filled.bind (S := (· = cellValue w.cells.length)) fun _ _ => .pure rfl) _ start
  rw [← made, hr] at filled
  obtain ⟨hv, hz⟩ := filled
  refine ⟨hv.gains, fun y hy => ?_⟩
  cases hz y hy
  exact ⟨rfl, hv.extent ▸ hcell⟩

theorem exec_copyOfItems (m : Machine) (hd : w.HoldsData C) (hx : x.Within (w.data C))
    {z : Except Fault Value} (hr : (m.copyItems x).exec w = (z, v)) :
    w.Gains C v ∧ ∀ y, z = .ok y → y = cellValue w.cells.length ∧
      y.Within (v.data (w.gained C v)) := by
  replace hr : Run.exec (do Run.kept (.list (← m.iterate x))) w = (z, v) := hr
  rw [exec_bind, exec_iterateData m hx] at hr
  cases hi : (w.followed x).items with
  | error f =>
    rw [hi] at hr
    cases hr
    exact ⟨.refl hd, fun _ he => nomatch he⟩
  | ok xs =>
    rw [hi] at hr
    cases hr
    obtain ⟨hg, hcell, -⟩ := Gains.withCell (x := .list xs) hd
      (Value.withinItems_iff.mpr (items_within (hd.followed hx) hi))
    refine ⟨hg, fun y hy => ?_⟩
    cases hy
    exact ⟨rfl, hcell⟩

end Machine

end Toolwright
