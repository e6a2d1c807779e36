import Toolwright.Block.Syntax
import Toolwright.Proofs.Renaming.Extent

/-!
# Renaming of what literals build

Two builds of one literal from different counts of marks give values that differ only in their
marks. The same holds of the variables of a call whose arguments differ only by a renaming.
-/

namespace Toolwright

set_option autoImplicit false

/-- From here on the marks of the two runs are given out side by side. -/
def Renaming.Shifts (ρ : Renaming) (n n' : Nat) : Prop := ∀ j, ρ.mark (n + j) = n' + j

/-- The extent with another bound for the marks. -/
def Extent.upTo (e : Extent) (marks : Nat) : Extent := { e with marks }

theorem Extent.upTo_mono (e : Extent) {n k : Nat} (h : n ≤ k) : (e.upTo n).Below (e.upTo k) :=
  ⟨fun _ h => h, fun _ h => h, h⟩

theorem Extent.upTo_below {e e' : Extent} (h : e.Below e') : (e.upTo e'.marks).Below e' :=
  ⟨h.cell, h.routine, Nat.le_refl _⟩

theorem Renaming.Shifts.add {ρ : Renaming} {n n' : Nat} (h : ρ.Shifts n n') (k : Nat) :
    ρ.Shifts (n + k) (n' + k) := by
  intro j
  rw [Nat.add_assoc, h, Nat.add_assoc]

namespace Build

/-- Two builds that do the same from any counts of marks that are at least `low` and shifted
against each other; `Q` is what holds of the count and the results afterwards. -/
def Agree {α β : Type} (ρ : Renaming) (low : Nat) (Q : Nat → α → β → Prop) (b : Build α)
    (b' : Build β) : Prop :=
  ∀ n n', low ≤ n → ρ.Shifts n n' →
    match b.run n, b'.run n' with
    | .ok (a, k), .ok (a', k') => n ≤ k ∧ ρ.Shifts k k' ∧ Q k a a'
    | .error f, .error g => f = g
    | _, _ => False

variable {α β γ δ : Type} {ρ : Renaming} {low : Nat}

namespace Agree

theorem pure {Q : Nat → α → β → Prop} {a : α} {a' : β} (h : ∀ k, low ≤ k → Q k a a') :
    Agree ρ low Q (pure a) (pure a') := by
  intro n n' hn hs
  exact ⟨Nat.le_refl n, hs, h n hn⟩

theorem throw {Q : Nat → α → β → Prop} (f : Fault) :
    Agree ρ low Q (throw f) (throw f) := by
  intro n n' _ _
  rfl

theorem bind {Q : Nat → α → β → Prop} {R : Nat → γ → δ → Prop} {b : Build α} {b' : Build β}
    {f : α → Build γ} {g : β → Build δ} (hb : Agree ρ low Q b b')
    (hf : ∀ k a a', low ≤ k → Q k a a' → Agree ρ k R (f a) (g a')) :
    Agree ρ low R (b >>= f) (b' >>= g) := by
  intro n n' hn hs
  have h := hb n n' hn hs
  simp only [StateT.run_bind]
  cases hr : b.run n with
  | error f =>
    cases hr' : b'.run n' with
    | error g => simpa [hr, hr', Bind.bind, Except.bind] using h
    | ok a' => simp [hr, hr'] at h
  | ok a =>
    cases hr' : b'.run n' with
    | error g => simp [hr, hr'] at h
    | ok a' =>
      obtain ⟨a, k⟩ := a
      obtain ⟨a', k'⟩ := a'
      simp only [hr, hr'] at h
      obtain ⟨hk, hsk, hq⟩ := h
      have h' := hf k a a' (Nat.le_trans hn hk) hq k k' (Nat.le_refl k) hsk
      simp only [Bind.bind, Except.bind]
      cases hc : (f a).run k with
      | error f =>
        cases hc' : (g a').run k' with
        | error g => simpa [hc, hc'] using h'
        | ok c' => simp [hc, hc'] at h'
      | ok c =>
        cases hc' : (g a').run k' with
        | error g => simp [hc, hc'] at h'
        | ok c' =>
          simp only [hc, hc'] at h'
          exact ⟨Nat.le_trans hk h'.1, h'.2.1, h'.2.2⟩

end Agree

/-- What was built by the second run is what was built by the first one, renamed. -/
def Renamed (ρ : Renaming) (e : Extent) (k : Nat) (a a' : Value) : Prop :=
  a.Within (e.upTo k) ∧ a' = a.rename ρ

def RenamedItems (ρ : Renaming) (e : Extent) (k : Nat) (xs ys : List Value) : Prop :=
  (∀ x ∈ xs, x.Within (e.upTo k)) ∧ ys = xs.map (Value.rename ρ)

def RenamedRows (ρ : Renaming) (e : Extent) (k : Nat) (rows others : List (Value × Value)) : Prop :=
  Value.RowsWithin (e.upTo k) rows ∧ others = rows.map (Value.renameRow ρ)

def RenamedNamed (ρ : Renaming) (e : Extent) (k : Nat) (named other : Named) : Prop :=
  Named.Within (e.upTo k) named ∧ other = Named.rename ρ named

end Build

namespace Binary64

theorem read?_rename (ρ : Renaming) (mark : Nat) (text : String) :
    (read? mark text).map (Binary64.rename ρ) = read? (ρ.mark mark) text := by
  have decimal (negative : Bool) (digits : Nat) (exponent : Int) :
      (ofDecimal negative digits exponent).rename ρ = ofDecimal negative digits exponent := by
    unfold ofDecimal
    split
    · rfl
    · split
      · rfl
      · split
        · rfl
        · exact rename_ofRatio ρ _ _ _
  have keeps (isEmpty negative : Bool) (exponent : Option Int) (digits : Nat) (shift : Int) :
      let x? := if isEmpty then none
        else exponent.map fun e => ofDecimal negative digits (e - shift)
      x?.map (Binary64.rename ρ) = x? := by
    cases isEmpty with
    | true => rfl
    | false =>
      cases exponent with
      | none => rfl
      | some e => exact congrArg some (decimal _ _ _)
  unfold read?
  dsimp only
  split
  · rfl
  · split
    · rfl
    · split <;> exact keeps _ _ _ _ _

/-- A number that was read is none or has the mark that it was given. -/
theorem within_read? {e : Extent} {mark : Nat} {text : String} {x : Binary64}
    (h : read? mark text = some x) : x.Within (e.upTo (mark + 1)) := by
  -- Renaming every mark but the given one moves any other mark, so there is none.
  cases x with
  | infinity => trivial
  | finite => trivial
  | nan n =>
    show n < mark + 1
    apply Nat.lt_succ_of_le
    apply Nat.le_of_not_lt
    intro hn
    have h' := read?_rename ⟨id, id, fun k => if k ≤ mark then k else k + 1, id, id, by
      intro a b hab
      split at hab <;> split at hab <;> omega⟩ mark text
    have hm : (if mark ≤ mark then mark else mark + 1) = mark := if_pos (Nat.le_refl mark)
    have hn' : (if n ≤ mark then n else n + 1) = n + 1 := if_neg (by omega)
    simp only [h, Option.map, Binary64.rename, hm, hn', Option.some.injEq, Binary64.nan.injEq] at h'
    omega

end Binary64

namespace Literal

open Build

variable {ρ : Renaming} {e : Extent}

theorem freshMark_agree (low : Nat) :
    Agree ρ low (fun k a a' => k = a + 1 ∧ a' = ρ.mark a) freshMark freshMark := by
  intro n n' _ hs
  exact ⟨Nat.le_succ n, hs.add 1, rfl, (hs 0).symm⟩

theorem readFloat_agree (text shown : String) (low : Nat) :
    Agree ρ low (Renamed ρ e) (readFloat text shown) (readFloat text shown) := by
  unfold readFloat
  apply Agree.bind (freshMark_agree low)
  rintro k a a' _ ⟨rfl, rfl⟩
  have hr := Binary64.read?_rename ρ a text
  cases hx : Binary64.read? a text with
  | none =>
    rw [hx] at hr
    simp only [Option.map, ← hr]
    exact Agree.throw _
  | some x =>
    rw [hx] at hr
    simp only [Option.map, ← hr]
    apply Agree.pure
    intro k hk
    exact ⟨(Binary64.within_read? (e := e) hx).mono (e.upTo_mono hk), rfl⟩

theorem checkHashable_agree (vs : List Value) (low : Nat) :
    Agree ρ low (fun _ _ _ => True) (checkHashable vs) (checkHashable (vs.map (Value.rename ρ))) := by
  have h : (vs.map (Value.rename ρ)).all Value.hashable = vs.all Value.hashable := by
    rw [List.all_map]
    congr 1
    funext v
    exact Value.hashable_rename ρ v
  unfold checkHashable
  rw [h]
  split
  · exact Agree.pure fun _ _ => trivial
  · exact Agree.throw _

theorem readInteger_agree (digits : String) (low : Nat) :
    Agree ρ low (fun _ a a' => a = a')
      (liftM (Value.readInteger 10 (.str digits)) : Build Int)
      (liftM (Value.readInteger 10 (.str digits))) := by
  intro n n' _ hs
  cases h : Value.readInteger 10 (.str digits) with
  | error f => rfl
  | ok a => exact ⟨Nat.le_refl n, hs, rfl⟩

mutual

theorem build_agree (l : Literal) (low : Nat) : Agree ρ low (Renamed ρ e) l.build l.build := by
  cases l with
  | null | bool | int | str | bytes => exact Agree.pure fun _ _ => ⟨trivial, rfl⟩
  | numeral digits =>
    rw [build]
    apply Agree.bind (readInteger_agree digits low)
    rintro k a _ _ rfl
    exact Agree.pure fun _ _ => ⟨trivial, rfl⟩
  | float text =>
    rw [build]
    exact readFloat_agree text _ low
  | list items | tuple items =>
    rw [build]
    apply Agree.bind (buildItems_agree items low)
    rintro k xs _ _ ⟨hw, rfl⟩
    apply Agree.pure
    intro j hj
    refine ⟨Value.withinItems_iff.mpr fun x hx => (hw x hx).mono (e.upTo_mono hj), ?_⟩
    rw [Value.rename, Value.renameItems_eq]
  | dict rows | mapping rows =>
    rw [build]
    apply Agree.bind (buildRows_agree rows low)
    rintro k rows _ _ ⟨hw, rfl⟩
    apply Agree.pure
    intro j hj
    constructor
    · apply Value.withinRows_iff.mpr
      intro row hrow
      have h := Value.within_collectRows hw row hrow
      exact ⟨h.1.mono (e.upTo_mono hj), h.2.mono (e.upTo_mono hj)⟩
    · rw [Value.rename, Value.renameRows_eq, Value.collectRows_rename]
  | set items | frozenset items =>
    rw [build]
    apply Agree.bind (buildItems_agree items low)
    rintro k xs _ _ ⟨hw, rfl⟩
    apply Agree.bind (checkHashable_agree xs k)
    intro j _ _ hj _
    apply Agree.pure
    intro i hi
    constructor
    · apply Value.withinItems_iff.mpr
      intro x hx
      exact (hw x (Value.mem_collectItems hx)).mono (e.upTo_mono (Nat.le_trans hj hi))
    · rw [Value.rename, Value.renameItems_eq, Value.collectItems_rename]
  | token text | mute reason =>
    rw [build]
    apply Agree.bind (freshMark_agree low)
    rintro k a _ _ ⟨rfl, rfl⟩
    exact Agree.pure fun j hj => ⟨hj, rfl⟩

theorem buildItems_agree (items : List Literal) (low : Nat) :
    Agree ρ low (RenamedItems ρ e) (buildItems items) (buildItems items) := by
  cases items with
  | nil => exact Agree.pure fun _ _ => ⟨by simp, rfl⟩
  | cons item items =>
    rw [buildItems]
    apply Agree.bind (build_agree item low)
    rintro k v _ _ ⟨hv, rfl⟩
    apply Agree.bind (buildItems_agree items k)
    rintro j xs _ hj ⟨hxs, rfl⟩
    apply Agree.pure
    intro i hi
    refine ⟨?_, rfl⟩
    intro x hx
    rcases List.mem_cons.mp hx with rfl | hx
    · exact hv.mono (e.upTo_mono (Nat.le_trans hj hi))
    · exact (hxs x hx).mono (e.upTo_mono hi)

theorem buildRows_agree (rows : List (Literal × Literal)) (low : Nat) :
    Agree ρ low (RenamedRows ρ e) (buildRows rows) (buildRows rows) := by
  cases rows with
  | nil => exact Agree.pure fun _ _ => ⟨by simp [Value.RowsWithin], rfl⟩
  | cons row rows =>
    obtain ⟨key, item⟩ := row
    rw [buildRows]
    apply Agree.bind (build_agree key low)
    rintro k key _ _ ⟨hkey, rfl⟩
    apply Agree.bind (build_agree item k)
    rintro j v _ hj ⟨hv, rfl⟩
    apply Agree.bind (checkHashable_agree [key] j)
    intro i _ _ hi _
    apply Agree.bind (buildRows_agree rows i)
    rintro h rows _ hh ⟨hrows, rfl⟩
    apply Agree.pure
    intro g hg
    refine ⟨?_, rfl⟩
    intro row hrow
    rcases List.mem_cons.mp hrow with rfl | hrow
    · exact ⟨hkey.mono (e.upTo_mono (by omega)), hv.mono (e.upTo_mono (by omega))⟩
    · have := hrows row hrow
      exact ⟨this.1.mono (e.upTo_mono hg), this.2.mono (e.upTo_mono hg)⟩

end

end Literal

/-! ## Tables of named values -/

namespace Named

variable (ρ : Renaming)

theorem find?_rename (named : Named) (name : String) :
    Table.find? (Named.rename ρ named) name = (Table.find? named name).map (Value.rename ρ) := by
  induction named with
  | nil => rfl
  | cons row named ih =>
    rw [Named.rename, List.map_cons, Table.find?_cons, Table.find?_cons]
    split
    · rfl
    · exact ih

theorem insert_rename (named : Named) (name : String) (v : Value) :
    Table.insert name (v.rename ρ) (Named.rename ρ named) =
      Named.rename ρ (Table.insert name v named) := by
  induction named with
  | nil => rfl
  | cons row named ih =>
    rw [Named.rename, List.map_cons, Table.insert_cons, Table.insert_cons]
    split
    · rfl
    · exact congrArg _ ih

theorem erase_rename (named : Named) (name : String) :
    Table.erase name (Named.rename ρ named) = Named.rename ρ (Table.erase name named) := by
  unfold Table.erase Named.rename
  rw [List.filter_map]
  rfl

theorem ofRows_rename (named : Named) :
    Table.ofRows (Named.rename ρ named) = Named.rename ρ (Table.ofRows named) := by
  have step (t : Named) :
      (Named.rename ρ named).foldl (fun t row => Table.insert row.1 row.2 t) (Named.rename ρ t) =
        Named.rename ρ (named.foldl (fun t row => Table.insert row.1 row.2 t) t) := by
    induction named generalizing t with
    | nil => rfl
    | cons row named ih =>
      show List.foldl _ (Table.insert row.1 (row.2.rename ρ) (Named.rename ρ t))
        (Named.rename ρ named) = _
      rw [insert_rename]
      exact ih _
  exact step []

theorem ofRows_value_rename (named : Named) :
    (Value.ofRows named).rename ρ = .ofRows (Named.rename ρ named) := by
  simp [Value.ofRows, Value.rename, Value.renameRows_eq, Named.rename]

variable {e : Extent}

theorem within_insert {named : Named} {name : String} {v : Value} (hn : Named.Within e named)
    (hv : v.Within e) : Named.Within e (Table.insert name v named) := by
  intro row hrow
  rcases (Table.mem_insertBy hrow).2 with h | ⟨r, hr, h⟩
  · exact h ▸ hv
  · exact h ▸ hn r hr

theorem within_ofRows {named : Named} (h : Named.Within e named) :
    Named.Within e (Table.ofRows named) := by
  have step (t : Named) (ht : Named.Within e t) :
      Named.Within e (named.foldl (fun t row => Table.insert row.1 row.2 t) t) := by
    induction named generalizing t with
    | nil => exact ht
    | cons row named ih =>
      rw [List.foldl_cons]
      exact ih (fun r hr => h r (List.mem_cons_of_mem _ hr)) _
        (within_insert ht (h row List.mem_cons_self))
  exact step [] (by simp [Named.Within])

theorem within_find? {named : Named} {name : String} {v : Value} (h : Named.Within e named)
    (hv : Table.find? named name = some v) : v.Within e := by
  unfold Table.find? at hv
  cases hr : List.find? (fun row => decide (row.1 = name)) named with
  | none => rw [hr] at hv; cases hv
  | some row =>
    rw [hr] at hv
    cases hv
    exact h row (List.mem_of_find?_eq_some hr)

theorem within_erase {named : Named} {name : String} (h : Named.Within e named) :
    Named.Within e (Table.erase name named) :=
  fun row hrow => h row (List.mem_filter.mp hrow).1

theorem within_ofRows_value {named : Named} (h : Named.Within e named) :
    (Value.ofRows named).Within e := by
  apply Value.withinRows_iff.mpr
  intro row hrow
  obtain ⟨r, hr, rfl⟩ := List.mem_map.mp hrow
  exact ⟨trivial, h r hr⟩

theorem Within.mono {t : Extent} (het : e.Below t) {named : Named} (h : Named.Within e named) :
    Named.Within t named :=
  fun row hrow => (h row hrow).mono het

end Named

/-! ## Variables of a call -/

namespace Block

open Build

variable {ρ : Renaming} {e : Extent}

/-- The variables of a call so far in an extent, and what the other run has in their place. -/
def RenamedBinding (ρ : Renaming) (e : Extent) (k : Nat) (b b' : Binding) : Prop :=
  (Named.Within (e.upTo k) b.vars ∧ Named.Within (e.upTo k) b.left) ∧
    b' = ⟨Named.rename ρ b.vars, Named.rename ρ b.left⟩

theorem take_agree (b : Binding) (param : String × Option Literal) (low : Nat)
    (hv : Named.Within (e.upTo low) b.vars) (hl : Named.Within (e.upTo low) b.left) :
    Agree ρ low (RenamedBinding ρ e) (b.take param)
      (Binding.take ⟨Named.rename ρ b.vars, Named.rename ρ b.left⟩ param) := by
  unfold Binding.take
  dsimp only
  rw [Named.find?_rename]
  cases hf : Table.find? b.left param.1 with
  | some v =>
    apply Agree.pure
    intro k hk
    refine ⟨⟨?_, ?_⟩, ?_⟩
    · exact Named.within_insert (hv.mono (e.upTo_mono hk))
        ((Named.within_find? hl hf).mono (e.upTo_mono hk))
    · exact Named.within_erase (hl.mono (e.upTo_mono hk))
    · simp only [Binding.give, Named.insert_rename, Named.erase_rename]
  | none =>
    cases hd : param.2 with
    | none => exact Agree.throw _
    | some default =>
      simp only [Option.map]
      apply Agree.bind (Literal.build_agree (e := e) default low)
      rintro k v _ hk ⟨hw, rfl⟩
      apply Agree.pure
      intro j hj
      refine ⟨⟨?_, hl.mono (e.upTo_mono (Nat.le_trans hk hj))⟩, ?_⟩
      · exact Named.within_insert (hv.mono (e.upTo_mono (Nat.le_trans hk hj)))
          (hw.mono (e.upTo_mono hj))
      · simp only [Binding.give, Named.insert_rename]

theorem takeAll_agree (params : List (String × Option Literal)) (b : Binding) (low : Nat)
    (hv : Named.Within (e.upTo low) b.vars) (hl : Named.Within (e.upTo low) b.left) :
    Agree ρ low (RenamedBinding ρ e) (params.foldlM Binding.take b)
      (params.foldlM Binding.take ⟨Named.rename ρ b.vars, Named.rename ρ b.left⟩) := by
  induction params generalizing b low with
  | nil =>
    apply Agree.pure
    intro k hk
    exact ⟨⟨hv.mono (e.upTo_mono hk), hl.mono (e.upTo_mono hk)⟩, rfl⟩
  | cons param params ih =>
    rw [List.foldlM_cons, List.foldlM_cons]
    apply Agree.bind (take_agree b param low hv hl)
    rintro k b _ _ ⟨⟨hv, hl⟩, rfl⟩
    exact ih b k hv hl

theorem placed_rename (params : List (String × Option Literal)) (args : List Value)
    (s : Binding) :
    (params.zip (args.map (Value.rename ρ))).foldl (fun s row => s.give row.1.1 row.2)
        (⟨Named.rename ρ s.vars, Named.rename ρ s.left⟩ : Binding) =
      let done := (params.zip args).foldl (fun s row => s.give row.1.1 row.2) s
      ⟨Named.rename ρ done.vars, Named.rename ρ done.left⟩ := by
  induction params generalizing args s with
  | nil => rfl
  | cons param params ih =>
    cases args with
    | nil => rfl
    | cons arg args =>
      have h := ih args (s.give param.1 arg)
      simp only [Binding.give, ← Named.insert_rename] at h
      exact h

theorem within_placed (params : List (String × Option Literal)) {args : List Value}
    {s : Binding} (ha : ∀ v ∈ args, v.Within e) (hv : Named.Within e s.vars)
    (hl : Named.Within e s.left) :
    let done := (params.zip args).foldl (fun s row => s.give row.1.1 row.2) s
    Named.Within e done.vars ∧ Named.Within e done.left := by
  induction params generalizing args s with
  | nil => exact ⟨hv, hl⟩
  | cons param params ih =>
    cases args with
    | nil => exact ⟨hv, hl⟩
    | cons arg args =>
      exact ih (fun v hmem => ha v (List.mem_cons_of_mem _ hmem))
        (Named.within_insert hv (ha arg List.mem_cons_self)) hl

theorem bind_agree (b : Block) (args : List Value) (named : Named) (low : Nat)
    (ha : ∀ v ∈ args, v.Within (e.upTo low)) (hn : Named.Within (e.upTo low) named) :
    Agree ρ low (RenamedNamed ρ e) (b.bind args named)
      (b.bind (args.map (Value.rename ρ)) (Named.rename ρ named)) := by
  have hplaced := placed_rename (ρ := ρ) b.params args ⟨[], named⟩
  obtain ⟨hv, hl⟩ := within_placed b.params (s := ⟨[], named⟩) ha (by simp [Named.Within]) hn
  have htake := takeAll_agree (ρ := ρ) (b.params.drop args.length) _ low hv hl
  dsimp only at hplaced
  rw [← hplaced] at htake
  unfold Block.bind
  rw [List.length_map]
  dsimp only
  split
  · exact Agree.bind (Q := fun _ _ _ => False) (Agree.throw _) fun _ _ _ _ h => h.elim
  · apply Agree.bind htake
    rintro j full _ hj ⟨⟨hv, hl⟩, rfl⟩
    cases b.rest with
    | some rest =>
      apply Agree.pure
      intro i hi
      constructor
      · exact Named.within_insert (hv.mono (e.upTo_mono hi))
          (Named.within_ofRows_value (hl.mono (e.upTo_mono hi)))
      · rw [← Named.insert_rename, Named.ofRows_value_rename]
    | none =>
      have hempty : (Named.rename ρ full.left).isEmpty = full.left.isEmpty := by
        cases full.left <;> rfl
      simp only [hempty]
      split
      · exact Agree.pure fun i hi => ⟨hv.mono (e.upTo_mono hi), rfl⟩
      · exact Agree.throw _

end Block

end Toolwright
