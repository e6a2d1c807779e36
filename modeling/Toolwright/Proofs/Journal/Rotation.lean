import Toolwright.Journal.Rotation
import Toolwright.Proofs.FileTree.WellFormed

/-!
# Writing lines to rotating files

A line that is written to an opened file changes nothing but the file and its backups. As long as the
last backup is free, nothing is lost: the backups and the file hold what they held before and the line
behind it.
-/

namespace Toolwright.Journal

set_option autoImplicit false

open FileTree

variable {t t' t'' : FileTree}

/-! ## Backups -/

/-- The paths of the backups of a file. -/
def IsBackup (p x : Path) : Prop := ∃ n, 1 ≤ n ∧ n ≤ backupCount ∧ x = backup p n

/-- The paths of a file and of its backups. -/
def Belongs (p x : Path) : Prop := x = p ∨ IsBackup p x

theorem backup_concat (d : Path) (name : String) (n : Nat) :
    backup (d ++ [name]) n = d ++ [name ++ "." ++ toString n] := by
  rw [backup, List.dropLast_concat, List.getLastD_concat]

theorem length_number {n : Nat} (hn : n ≤ 9) : (toString n).toList.length = 1 := by
  rw [Nat.toString_eq_repr, Nat.toList_repr, Nat.toDigits_of_lt_base (by omega)]
  rfl

theorem number_inj {n m : Nat} (h : toString n = toString m) : n = m := by
  have hdigits : Nat.toDigits 10 n = Nat.toDigits 10 m := by
    rw [← Nat.toList_repr, ← Nat.toList_repr]
    exact congrArg String.toList h
  rw [← Nat.ofDigitChars_ten_toDigits (n := n), hdigits, Nat.ofDigitChars_ten_toDigits]

theorem backup_inj {d d' : Path} {name name' : String} {n m : Nat} (hn : n ≤ 9) (hm : m ≤ 9)
    (h : backup (d ++ [name]) n = backup (d' ++ [name']) m) : d ++ [name] = d' ++ [name'] ∧ n = m := by
  rw [backup_concat, backup_concat] at h
  obtain ⟨rfl, hnames⟩ := List.append_inj' h rfl
  have hchars := congrArg String.toList (List.cons.inj hnames).1
  simp only [String.toList_append] at hchars
  obtain ⟨hfront, hnumber⟩ := List.append_inj' hchars
    (by rw [length_number hn, length_number hm])
  have hname := (List.append_inj' hfront rfl).1
  exact ⟨by rw [String.toList_inj.mp hname], number_inj (String.toList_inj.mp hnumber)⟩

theorem name_ne_backup (name : String) (n : Nat) : name ≠ name ++ "." ++ toString n := by
  intro h
  have hlength := congrArg (fun s => s.toList.length) h
  simp at hlength

theorem backup_ne (d : Path) (name : String) (n : Nat) : backup (d ++ [name]) n ≠ d ++ [name] := by
  rw [backup_concat]
  exact fun h => name_ne_backup name n (List.cons.inj (List.append_inj' h rfl).2).1.symm

theorem backup_name_ne {n : Nat} (hn : n ≤ 9) (name : String) : name ++ "." ++ toString n ≠ ".." := by
  intro h
  have hchars := congrArg String.toList h
  rw [String.toList_append] at hchars
  have hlast : (toString n).toList = ['.'] :=
    (List.append_inj' (hchars.trans (rfl : _ = ['.'] ++ ['.'])) (length_number hn)).2
  have hdigit : (toString n).toList.head?.map Char.isDigit = some true := by
    rw [Nat.toString_eq_repr, Nat.toList_repr, Nat.toDigits_of_lt_base (by omega)]
    interval_cases n <;> rfl
  rw [hlast] at hdigit
  cases hdigit

/-! ## Moving a file -/

theorem find?_rekey {t : List (Path × Entry)} {source target : Path}
    (hfree : Table.find? t target = none) (x : Path) :
    Table.find? (t.map fun row => if row.1 = source then (target, row.2) else row) x =
      if x = target then Table.find? t source
      else if x = source then none else Table.find? t x := by
  induction t with
  | nil => rw [List.map_nil, Table.find?_nil, Table.find?_nil, ite_self, ite_self]
  | cons row t ih =>
    rw [Table.find?_cons] at hfree
    split at hfree
    · cases hfree
    · rename_i hrow
      rw [List.map_cons, Table.find?_cons, ih hfree, Table.find?_cons, Table.find?_cons]
      by_cases hsource : row.1 = source
      · rw [if_pos hsource]
        by_cases hx : x = target
        · simp [hx, hsource]
        · rw [if_neg fun e => hx e.symm, if_neg hx, if_neg hx]
          by_cases hxs : x = source
          · rw [if_pos hxs, if_pos hxs]
          · rw [if_neg hxs, if_neg hxs, if_neg fun e => hxs (e.symm.trans hsource)]
      · rw [if_neg hsource]
        by_cases hx : x = target
        · rw [if_pos hx, if_pos hx, if_neg fun e => hrow (e.trans hx)]
          rw [if_neg hsource]
        · rw [if_neg hx, if_neg hx]
          by_cases hxs : x = source
          · rw [if_pos hxs, if_pos hxs, if_neg fun e => hsource (e.trans hxs)]
          · rw [if_neg hxs, if_neg hxs]

section Move

variable {d : Path} {a b : String} {c : Content}

theorem rename_file (h : WellFormed t) {source target : Path} (hs : t.at? source = some (.file c)) :
    rename (Table.erase target t) source target = (Table.erase target t).map fun row =>
      if row.1 = source then (target, row.2) else row := by
  have habove : source.isAbove = false := not_above (by rw [hs]; exact nofun)
  refine List.map_congr_left fun row hrow => ?_
  have hmem : row ∈ t := List.mem_of_mem_filter hrow
  by_cases hprefix : source <+: row.1
  · obtain ⟨rest, hrest⟩ := hprefix
    have hnil : rest = [] := by
      by_contra hne
      have hnone := h.nothing_below (by rw [hs]; exact nofun) hne
      rw [hrest] at hnone
      cases hrow : row.1.isAbove with
      | true =>
        rw [at?_above hrow] at hnone
        cases hnone
      | false =>
        rw [at?_eq_find? hrow, Table.find?, Option.map_eq_none_iff, List.find?_eq_none] at hnone
        exact hnone row hmem (decide_eq_true rfl)
    subst hnil
    rw [List.append_nil] at hrest
    rw [if_pos (List.isPrefixOf_iff_prefix.mpr (hrest ▸ List.prefix_rfl)), if_pos hrest.symm,
      ← hrest, List.drop_length, List.append_nil]
  · rw [if_neg fun e => hprefix (List.isPrefixOf_iff_prefix.mp e), if_neg]
    rintro rfl
    exact hprefix List.prefix_rfl

theorem at?_rename (h : WellFormed t) (hab : a ≠ b) (hs : t.at? (d ++ [a]) = some (.file c))
    (hg : t.at? (d ++ [b]) ≠ some .directory) (x : Path) :
    (rename (Table.erase (d ++ [b]) t) (d ++ [a]) (d ++ [b])).at? x =
      if x = d ++ [b] then some (.file c)
      else if x = d ++ [a] then none else t.at? x := by
  have hne : d ++ [a] ≠ d ++ [b] := by simpa using hab
  have hsource : (d ++ [a]).isAbove = false := not_above (by rw [hs]; exact nofun)
  have htarget : (d ++ [b]).isAbove = false := not_above hg
  rw [rename_file h hs]
  cases hx : x.isAbove with
  | true =>
    rw [at?_above hx, at?_above hx, if_neg, if_neg]
    · rintro rfl
      rw [hx] at hsource
      cases hsource
    · rintro rfl
      rw [hx] at htarget
      cases htarget
  | false =>
    rw [at?_eq_find? hx, find?_rekey (by rw [Table.find?_erase, if_pos rfl]),
      Table.find?_erase, Table.find?_erase, if_neg hne.symm, ← at?_eq_find? hsource, hs,
      at?_eq_find? hx]
    by_cases hxt : x = d ++ [b]
    · rw [if_pos hxt, if_pos hxt]
    · rw [if_neg hxt, if_neg hxt, if_neg (c := d ++ [b] = x) fun e => hxt e.symm]

theorem wellFormed_rename (h : WellFormed t) (hab : a ≠ b) (hb : b ≠ "..")
    (hs : t.at? (d ++ [a]) = some (.file c)) (hg : t.at? (d ++ [b]) ≠ some .directory) :
    WellFormed (rename (Table.erase (d ++ [b]) t) (d ++ [a]) (d ++ [b])) := by
  have directories : ∀ {x}, t.at? x = some .directory →
      (rename (Table.erase (d ++ [b]) t) (d ++ [a]) (d ++ [b])).at? x = some .directory := by
    intro x hx
    rw [at?_rename h hab hs hg, if_neg, if_neg]
    · exact hx
    · rintro rfl
      rw [hs] at hx
      cases hx
    · rintro rfl
      exact hg hx
  constructor
  · intro p name hsome
    apply directories
    rw [at?_rename h hab hs hg] at hsome
    split at hsome
    · rename_i heq
      obtain ⟨rfl, -⟩ := List.append_inj' heq rfl
      exact h.inside (by rw [hs]; exact nofun)
    · split at hsome
      · exact absurd rfl hsome
      · exact h.inside hsome
  · intro p hsome
    rw [at?_rename h hab hs hg] at hsome
    split at hsome
    · rename_i heq
      exact absurd (List.cons.inj (List.append_inj' heq rfl).2).1.symm hb
    · split at hsome
      · exact absurd rfl hsome
      · exact h.named hsome

end Move

theorem run_move (source target : Path) (t : FileTree) : (move source target).run t =
    if (t.at? source).isNone then (.ok (), t)
    else
      match t.at? target with
      | some .directory => (.error (.file .isDirectory), t)
      | _ =>
        if Path.nameLimit < (target.getLastD "").utf8ByteSize then
          (.error (.file .nameTooLong), t)
        else (.ok (), rename (Table.erase target t) source target) := by
  unfold move
  rw [run_bind]
  show Change.run (if (t.at? source).isNone then _ else _) t = _
  split
  · rfl
  · cases t.at? target with
    | none =>
      show Change.run (if _ then _ else _) t = _
      split <;> rfl
    | some e =>
      cases e with
      | directory => rfl
      | file c =>
        show Change.run (if _ then _ else _) t = _
        split <;> rfl

/-- Between two trees only files at some places have changed. -/
structure Within (places : Path → Prop) (t t' : FileTree) : Prop where
  outside : ∀ x, ¬ places x → t'.at? x = t.at? x
  files : ∀ x, places x → t'.at? x ≠ some .directory

variable {places : Path → Prop}

theorem Within.refl (h : ∀ x, places x → t.at? x ≠ some .directory) : Within places t t :=
  ⟨fun _ _ => rfl, h⟩

theorem Within.trans (h : Within places t t') (h' : Within places t' t'') : Within places t t'' :=
  ⟨fun x hx => (h'.outside x hx).trans (h.outside x hx), h'.files⟩

theorem Within.mono {places' : Path → Prop} (h : Within places t t')
    (hsub : ∀ x, places x → places' x) (hfiles : ∀ x, places' x → t.at? x ≠ some .directory) :
    Within places' t t' := by
  refine ⟨fun x hx => h.outside x fun hp => hx (hsub x hp), fun x hx => ?_⟩
  by_cases hp : places x
  · exact h.files x hp
  · rw [h.outside x hp]
    exact hfiles x hx

theorem Within.directory (h : Within places t t') (hfiles : ∀ x, places x → t.at? x ≠ some .directory)
    {x : Path} (hx : t.at? x = some .directory) : t'.at? x = some .directory := by
  rw [h.outside x fun hp => hfiles x hp hx, hx]

/-- A change of well-formed trees that changes files at some places only, where no directories
are. -/
def Confined {α : Type} (places : Path → Prop) (c : Change α) : Prop :=
  ∀ t, WellFormed t → (∀ x, places x → t.at? x ≠ some .directory) →
    WellFormed (c.apply t) ∧ Within places t (c.apply t)

theorem Confined.bind {α β : Type} {c : Change α} {f : α → Change β} (hc : Confined places c)
    (hf : ∀ a, Confined places (f a)) : Confined places (c >>= f) := by
  intro t ht hfiles
  obtain ⟨hwell, hwithin⟩ := hc t ht hfiles
  rw [Change.apply, run_bind]
  rw [Change.apply] at hwell hwithin
  rcases hrun : c.run t with ⟨fault | a, t'⟩ <;> rw [hrun] at hwell hwithin
  · exact ⟨hwell, hwithin⟩
  · obtain ⟨hwell', hwithin'⟩ := hf a t' hwell hwithin.files
    exact ⟨hwell', hwithin.trans hwithin'⟩

theorem confined_move {d : Path} {a b : String} (hab : a ≠ b) (hb : b ≠ "..")
    (hs : places (d ++ [a])) (hg : places (d ++ [b])) :
    Confined places (move (d ++ [a]) (d ++ [b])) := by
  intro t h hfiles
  have same : WellFormed t ∧ Within places t t := ⟨h, .refl hfiles⟩
  rw [Change.apply, run_move]
  split
  · exact same
  · rename_i hsome
    split
    · exact same
    · split
      · exact same
      · cases hsource : t.at? (d ++ [a]) with
        | none => exact absurd (by rw [hsource]; rfl) hsome
        | some e =>
          cases e with
          | directory => exact absurd hsource (hfiles _ hs)
          | file c =>
            refine ⟨wellFormed_rename h hab hb hsource (hfiles _ hg), fun x hx => ?_, fun x hx => ?_⟩
            · rw [at?_rename h hab hsource (hfiles _ hg), if_neg, if_neg]
              · rintro rfl
                exact hx hs
              · rintro rfl
                exact hx hg
            · rw [at?_rename h hab hsource (hfiles _ hg)]
              split
              · simp
              · split
                · simp
                · exact hfiles x hx

theorem move_file (h : WellFormed t) {d : Path} {a b : String} (hab : a ≠ b) (hb : b ≠ "..")
    (hs : t.at? (d ++ [a]) ≠ some .directory) (hg : t.at? (d ++ [b]) ≠ some .directory)
    (hfree : t.at? (d ++ [a]) = none → t.at? (d ++ [b]) = none)
    (hshort : b.utf8ByteSize ≤ Path.nameLimit) :
    ∃ t', (move (d ++ [a]) (d ++ [b])).run t = (.ok (), t') ∧ WellFormed t' ∧
      ∀ x, t'.at? x = if x = d ++ [b] then t.at? (d ++ [a])
        else if x = d ++ [a] then none else t.at? x := by
  rw [run_move]
  cases hsource : t.at? (d ++ [a]) with
  | none =>
    refine ⟨t, rfl, h, fun x => ?_⟩
    split
    · rename_i heq
      rw [heq, hfree hsource]
    · split
      · rename_i heq
        rw [heq, hsource]
      · rfl
  | some e =>
    cases e with
    | directory => exact absurd hsource hs
    | file c =>
      have hlast : ((d ++ [b]).getLastD "").utf8ByteSize = b.utf8ByteSize := by
        rw [List.getLastD_concat]
      rw [Option.isNone_some, if_neg Bool.false_ne_true]
      split
      · exact absurd ‹_› hg
      · rw [hlast, if_neg (Nat.not_lt.mpr hshort)]
        exact ⟨_, rfl, wellFormed_rename h hab hb hsource hg, at?_rename h hab hsource hg⟩

theorem directory_of_moved {source target : Path} (hs : t.at? source ≠ some .directory)
    (hg : t.at? target ≠ some .directory) (hat : ∀ x, t'.at? x =
      if x = target then t.at? source else if x = source then none else t.at? x)
    {x : Path} (hx : t.at? x = some .directory) : t'.at? x = some .directory := by
  rw [hat, if_neg, if_neg]
  · exact hx
  · rintro rfl
    exact hs hx
  · rintro rfl
    exact hg hx

theorem of_move_error {source target : Path} {fault : Fault}
    (h : (move source target).run t = (.error fault, t')) : t' = t := by
  rw [run_move] at h
  split at h
  · cases h
  · split at h
    · exact (Prod.mk.inj h).2.symm
    · split at h
      · exact (Prod.mk.inj h).2.symm
      · cases h

/-! ## Rotating -/

theorem isBackup_backup (p : Path) {n : Nat} (h1 : 1 ≤ n) (h3 : n ≤ 3) : IsBackup p (backup p n) :=
  ⟨n, h1, h3, rfl⟩

theorem backup_cases {p x : Path} (h : IsBackup p x) :
    x = backup p 1 ∨ x = backup p 2 ∨ x = backup p 3 := by
  obtain ⟨n, h1, h3, rfl⟩ := h
  obtain rfl | rfl | rfl : n = 1 ∨ n = 2 ∨ n = 3 := by
    unfold backupCount at h3
    omega
  · exact .inl rfl
  · exact .inr (.inl rfl)
  · exact .inr (.inr rfl)

theorem not_isBackup (d : Path) (name : String) : ¬ IsBackup (d ++ [name]) (d ++ [name]) := by
  rintro ⟨n, -, -, h⟩
  exact backup_ne d name n h.symm

theorem confined_shiftBackups (d : Path) (name : String) {n : Nat} (hn : n ≤ 2) :
    Confined (IsBackup (d ++ [name])) (shiftBackups (d ++ [name]) n) := by
  induction n with
  | zero => exact fun t ht hfiles => ⟨ht, .refl hfiles⟩
  | succ n ih =>
    refine Confined.bind ?_ fun _ => ih (by omega)
    have hsource := isBackup_backup (d ++ [name]) (n := n + 1) (by omega) (by omega)
    have htarget := isBackup_backup (d ++ [name]) (n := n + 2) (by omega) (by omega)
    rw [backup_concat] at hsource htarget
    rw [backup_concat, backup_concat]
    exact confined_move (by simp) (backup_name_ne (by omega) name) hsource htarget

/-- Whether or not a file can be rotated, it is open afterwards, and nothing but the file and its
backups has changed. -/
theorem rotate_opened {p : Path} (h : WellFormed t) (ho : Opened t p)
    (hfiles : ∀ x, IsBackup p x → t.at? x ≠ some .directory) :
    WellFormed ((rotate p).apply t) ∧ Opened ((rotate p).apply t) p ∧
      Within (Belongs p) t ((rotate p).apply t) := by
  obtain ⟨d, name, rfl, hd, -⟩ := ho.cases h
  have belongs : ∀ x, Belongs (d ++ [name]) x → t.at? x ≠ some .directory := by
    rintro x (rfl | hx)
    · exact ho.not_directory
    · exact hfiles x hx
  obtain ⟨hwell, hwithin⟩ := confined_shiftBackups d name (Nat.le_refl 2) t h hfiles
  have hshift := hwithin.mono (fun x hx => .inr hx) belongs
  have kept : Opened ((shiftBackups (d ++ [name]) 2).apply t) (d ++ [name]) := by
    obtain ⟨c, hc⟩ := ho.file
    refine ⟨walk_of_directories (fun x hx => hwithin.directory hfiles hx) ho.walk, c, ?_⟩
    rw [hwithin.outside _ (not_isBackup d name), hc]
  rw [Change.apply, rotate, show backupCount - 1 = 2 from rfl, run_bind]
  unfold Change.apply at hwell hshift kept
  rcases hrun₁ : (shiftBackups (d ++ [name]) 2).run t with ⟨fault | _, t₁⟩ <;>
    rw [hrun₁] at hwell hshift kept
  · exact ⟨hwell, kept, hshift⟩
  have hconfined : Confined (Belongs (d ++ [name])) (move (d ++ [name]) (backup (d ++ [name]) 1)) := by
    have hbackup := isBackup_backup (d ++ [name]) (n := 1) (by decide) (by decide)
    rw [backup_concat] at hbackup ⊢
    exact confined_move (name_ne_backup name 1) (backup_name_ne (by decide) name) (.inl rfl)
      (.inr hbackup)
  obtain ⟨hwell₂, hwithin₂⟩ := hconfined t₁ hwell hshift.files
  unfold Change.apply at hwell₂ hwithin₂
  simp only
  rw [run_bind]
  rcases hrun₂ : (move (d ++ [name]) (backup (d ++ [name]) 1)).run t₁ with ⟨fault | _, t₂⟩
  · obtain rfl := of_move_error hrun₂
    exact ⟨hwell, kept, hshift⟩
  rw [hrun₂] at hwell₂ hwithin₂
  have hwalk : t₂.walk [] (d ++ [name]) = .ok (d ++ [name]) :=
    walk_of_directories (fun x hx => hwithin₂.directory hshift.files hx) kept.walk
  obtain ⟨t₃, hopen, hwell₃, hopened, hat⟩ := hwell₂.open hwalk (hwithin₂.files _ (.inl rfl))
  simp only [hopen]
  refine ⟨hwell₃, hopened, (hshift.trans hwithin₂).trans ⟨fun x hx => ?_, fun x hx => ?_⟩⟩
  · rw [hat, if_neg]
    rintro ⟨-, rfl⟩
    exact hx (.inl rfl)
  · rw [hat]
    split
    · simp
    · exact hwithin₂.files x hx

/-- Whether the names of the backups of a file are short enough. -/
def Short (p : Path) : Prop := (p.getLastD "").utf8ByteSize + 2 ≤ Path.nameLimit

theorem Short.backup {d : Path} {name : String} (h : Short (d ++ [name])) {n : Nat} (h1 : 1 ≤ n)
    (h3 : n ≤ 3) : (name ++ "." ++ toString n).utf8ByteSize ≤ Path.nameLimit := by
  rw [Short, List.getLastD_concat] at h
  have hnumber : (toString n).utf8ByteSize = 1 := by
    obtain rfl | rfl | rfl : n = 1 ∨ n = 2 ∨ n = 3 := by omega
    · rfl
    · rfl
    · rfl
  rw [String.utf8ByteSize_append, String.utf8ByteSize_append, hnumber]
  exact h

theorem rotate_file {p : Path} (h : WellFormed t) (ho : Opened t p)
    (hfiles : ∀ x, IsBackup p x → t.at? x ≠ some .directory) (hfree : t.at? (backup p 3) = none)
    (hshort : Short p) : ∃ t', (rotate p).run t = (.ok (), t') ∧
      t'.at? p = some (.file (.text "")) ∧ t'.at? (backup p 1) = t.at? p ∧
      t'.at? (backup p 2) = t.at? (backup p 1) ∧ t'.at? (backup p 3) = t.at? (backup p 2) := by
  obtain ⟨d, name, rfl, -, -⟩ := ho.cases h
  have hb : ∀ n, 1 ≤ n → n ≤ 3 → t.at? (backup (d ++ [name]) n) ≠ some .directory :=
    fun n h1 h3 => hfiles _ (isBackup_backup _ h1 h3)
  have ne_file : ∀ n, backup (d ++ [name]) n ≠ d ++ [name] := backup_ne d name
  have ne_backup : ∀ {n m}, n ≤ 3 → m ≤ 3 → n ≠ m →
      backup (d ++ [name]) n ≠ backup (d ++ [name]) m := fun hn hm hne e =>
    hne (backup_inj (by omega) (by omega) e).2
  -- the second backup becomes the third one
  obtain ⟨t₁, hrun₁, hwell₁, hat₁⟩ := move_file h (d := d) (a := name ++ "." ++ toString 2)
    (b := name ++ "." ++ toString 3) (by simp) (backup_name_ne (by decide) name)
    (backup_concat d name 2 ▸ hb 2 (by decide) (by decide))
    (backup_concat d name 3 ▸ hb 3 (by decide) (by decide))
    (fun _ => backup_concat d name 3 ▸ hfree) (hshort.backup (by decide) (by decide))
  simp only [← backup_concat] at hrun₁ hat₁
  have files₁ : ∀ n, 1 ≤ n → n ≤ 3 → t₁.at? (backup (d ++ [name]) n) ≠ some .directory := by
    intro n h1 h3
    rw [hat₁]
    split
    · exact hb 2 (by decide) (by decide)
    · split
      · exact nofun
      · exact hb n h1 h3
  -- the first one becomes the second one
  obtain ⟨t₂, hrun₂, hwell₂, hat₂⟩ := move_file hwell₁ (d := d) (a := name ++ "." ++ toString 1)
    (b := name ++ "." ++ toString 2) (by simp) (backup_name_ne (by decide) name)
    (backup_concat d name 1 ▸ files₁ 1 (by decide) (by decide))
    (backup_concat d name 2 ▸ files₁ 2 (by decide) (by decide))
    (fun _ => by
      rw [← backup_concat, hat₁, if_neg (ne_backup (by decide) (by decide) (by decide)),
        if_pos rfl])
    (hshort.backup (by decide) (by decide))
  simp only [← backup_concat] at hrun₂ hat₂
  -- the file becomes the first one
  obtain ⟨c, hc⟩ := ho.file
  have file₂ : t₂.at? (d ++ [name]) = some (.file c) := by
    rw [hat₂, if_neg (ne_file 2).symm, if_neg (ne_file 1).symm, hat₁, if_neg (ne_file 3).symm,
      if_neg (ne_file 2).symm, hc]
  have free₂ : t₂.at? (backup (d ++ [name]) 1) = none := by
    rw [hat₂, if_neg (ne_backup (by decide) (by decide) (by decide)), if_pos rfl]
  obtain ⟨t₃, hrun₃, hwell₃, hat₃⟩ := move_file hwell₂ (d := d) (a := name)
    (b := name ++ "." ++ toString 1) (name_ne_backup name 1) (backup_name_ne (by decide) name)
    (by rw [file₂]; exact nofun) (by rw [← backup_concat, free₂]; exact nofun)
    (fun hnone => by rw [file₂] at hnone; cases hnone) (hshort.backup (by decide) (by decide))
  simp only [← backup_concat] at hrun₃ hat₃
  have hwalk : t₃.walk [] (d ++ [name]) = .ok (d ++ [name]) := by
    refine walk_of_directories (fun x hx => ?_) ho.walk
    refine directory_of_moved (by rw [file₂]; exact nofun) (by rw [free₂]; exact nofun) hat₃ ?_
    refine directory_of_moved (files₁ 1 (by decide) (by decide)) (files₁ 2 (by decide) (by decide))
      hat₂ ?_
    exact directory_of_moved (hb 2 (by decide) (by decide)) (hb 3 (by decide) (by decide)) hat₁ hx
  have gone₃ : t₃.at? (d ++ [name]) = none := by
    rw [hat₃, if_neg (ne_file 1).symm, if_pos rfl]
  obtain ⟨t₄, hrun₄, -, -, hat₄⟩ := hwell₃.open hwalk (by rw [gone₃]; exact nofun)
  have backups₄ : ∀ n, t₄.at? (backup (d ++ [name]) n) = t₃.at? (backup (d ++ [name]) n) := by
    intro n
    rw [hat₄, if_neg]
    exact fun e => ne_file n e.2.symm
  refine ⟨t₄, ?_, ?_, ?_, ?_, ?_⟩
  · have hshift : (shiftBackups (d ++ [name]) 2).run t = (.ok (), t₂) := by
      rw [shiftBackups, run_bind, hrun₁]
      simp only
      rw [shiftBackups, run_bind, hrun₂]
      rfl
    rw [rotate, show backupCount - 1 = 2 from rfl, run_bind, hshift]
    simp only
    rw [run_bind, hrun₃]
    exact hrun₄
  · rw [hat₄, if_pos ⟨gone₃, rfl⟩]
  · rw [backups₄, hat₃, if_pos rfl, file₂, hc]
  · rw [backups₄, hat₃, if_neg (ne_backup (by decide) (by decide) (by decide)),
      if_neg (ne_file 2), hat₂, if_pos rfl, hat₁,
      if_neg (ne_backup (by decide) (by decide) (by decide)),
      if_neg (ne_backup (by decide) (by decide) (by decide))]
  · rw [backups₄, hat₃, if_neg (ne_backup (by decide) (by decide) (by decide)),
      if_neg (ne_file 3), hat₂, if_neg (ne_backup (by decide) (by decide) (by decide)),
      if_neg (ne_backup (by decide) (by decide) (by decide)), hat₁, if_pos rfl]

/-! ## Writing -/

theorem run_append (p : Path) (s : String) (t : FileTree) : (append p s).run t =
    (.ok (), match t.content? p with
      | some c => t.put p (.file (c.append s))
      | none => t.put p (.file (.text s))) := by
  show Change.run (match t.content? p with
    | some c => set (t.put p (.file (c.append s)))
    | none => set (t.put p (.file (.text s))) : Change Unit) t = _
  cases t.content? p <;> rfl

theorem run_writeLine (p : Path) (line : String) (t : FileTree) : (writeLine p line).run t =
    if isFull t p line then
      match (rotate p).run t with
      | (.ok _, t') => (append p line).run t'
      | (.error fault, t') => (.error fault, t')
    else (append p line).run t := by
  unfold writeLine
  rw [run_bind]
  show Change.run (if isFull t p line then _ else _) t = _
  split
  · rw [run_bind]
    rcases (rotate p).run t with ⟨fault | _, t'⟩ <;> rfl
  · rfl

theorem append_opened {p : Path} (h : WellFormed t) (ho : Opened t p) {c : Content}
    (hc : t.at? p = some (.file c)) (line : String) : WellFormed ((append p line).apply t) ∧
      Opened ((append p line).apply t) p ∧ ∀ x, ((append p line).apply t).at? x =
        if p = x then some (.file (c.append line)) else t.at? x := by
  have hcontent : t.content? p = some c := by rw [content?, hc]
  have happend : (append p line).apply t = t.put p (.file (c.append line)) := by
    rw [Change.apply, run_append, hcontent]
  have hput := at?_put (t := t) (e := .file (c.append line)) (not_above ho.not_directory)
  rw [happend]
  refine ⟨h.put_file hc _, ⟨walk_of_directories (fun x hx => ?_) ho.walk, _,
    (hput p).trans (if_pos rfl)⟩, hput⟩
  rw [hput, if_neg]
  · exact hx
  · rintro rfl
    exact ho.not_directory hx

theorem append_within {p : Path} (h : WellFormed t) (ho : Opened t p)
    (hfiles : ∀ x, Belongs p x → t.at? x ≠ some .directory) (line : String) :
    WellFormed ((append p line).apply t) ∧ Opened ((append p line).apply t) p ∧
      Within (Belongs p) t ((append p line).apply t) := by
  obtain ⟨c, hc⟩ := ho.file
  obtain ⟨hwell, hopened, hat⟩ := append_opened h ho hc line
  refine ⟨hwell, hopened, fun x hx => ?_, fun x hx => ?_⟩
  · rw [hat, if_neg]
    rintro rfl
    exact hx (.inl rfl)
  · rw [hat]
    split
    · exact nofun
    · exact hfiles x hx

/-- Whatever becomes of a line, the file is open afterwards, and nothing but the file and its backups
has changed. -/
theorem writeLine_within {p : Path} (h : WellFormed t) (ho : Opened t p)
    (hfiles : ∀ x, IsBackup p x → t.at? x ≠ some .directory) (line : String) :
    WellFormed ((writeLine p line).apply t) ∧ Opened ((writeLine p line).apply t) p ∧
      Within (Belongs p) t ((writeLine p line).apply t) := by
  have belongs : ∀ x, Belongs p x → t.at? x ≠ some .directory := by
    rintro x (rfl | hx)
    · exact ho.not_directory
    · exact hfiles x hx
  have hrotate := rotate_opened h ho hfiles
  rw [Change.apply, run_writeLine]
  split
  · unfold Change.apply at hrotate
    rcases hrun : (rotate p).run t with ⟨fault | _, t'⟩ <;> rw [hrun] at hrotate
    · exact hrotate
    · obtain ⟨hwell, hopened, hwithin⟩ := hrotate
      obtain ⟨hwell', hopened', hwithin'⟩ := append_within hwell hopened hwithin.files line
      exact ⟨hwell', hopened', hwithin.trans hwithin'⟩
  · exact append_within h ho belongs line

/-! ## What was written -/

def bytesOf : Content → ByteArray
  | .text s => s.toUTF8
  | .raw bytes => bytes

/-- The bytes of the file at a place, if there is one. -/
def bytesAt (t : FileTree) (p : Path) : ByteArray :=
  match t.at? p with
  | some (.file c) => bytesOf c
  | _ => .empty

/-- The backups of a file, the oldest first, and the file behind them. -/
def history (t : FileTree) (p : Path) : ByteArray :=
  bytesAt t (backup p 3) ++ bytesAt t (backup p 2) ++ bytesAt t (backup p 1) ++ bytesAt t p

theorem bytesOf_append (c : Content) (s : String) : bytesOf (c.append s) = bytesOf c ++ s.toUTF8 := by
  cases c with
  | text t => exact String.toByteArray_append
  | raw bytes => rfl

theorem bytesAt_congr {x y : Path} (h : t'.at? y = t.at? x) : bytesAt t' y = bytesAt t x := by
  rw [bytesAt, bytesAt, h]

theorem bytesAt_none {x : Path} (h : t.at? x = none) : bytesAt t x = .empty := by
  rw [bytesAt, h]

theorem history_append {p : Path} (h : WellFormed t) (ho : Opened t p) (line : String) :
    history ((append p line).apply t) p = history t p ++ line.toUTF8 ∧
      ∀ x, x ≠ p → ((append p line).apply t).at? x = t.at? x := by
  obtain ⟨d, name, rfl, -, -⟩ := ho.cases h
  obtain ⟨c, hc⟩ := ho.file
  obtain ⟨-, -, hat⟩ := append_opened h ho hc line
  have others : ∀ x, x ≠ d ++ [name] →
      ((append (d ++ [name]) line).apply t).at? x = t.at? x := fun x hx => by
    rw [hat, if_neg fun e => hx e.symm]
  refine ⟨?_, others⟩
  have here : bytesAt ((append (d ++ [name]) line).apply t) (d ++ [name]) =
      bytesAt t (d ++ [name]) ++ line.toUTF8 := by
    rw [bytesAt, hat, if_pos rfl, bytesAt, hc]
    exact bytesOf_append c line
  rw [history, history, bytesAt_congr (others _ (backup_ne d name 3)),
    bytesAt_congr (others _ (backup_ne d name 2)), bytesAt_congr (others _ (backup_ne d name 1)),
    here]
  exact ByteArray.append_assoc.symm

/-- A line that is written goes behind what the backups and the file held, as long as the last backup
is free where the file is rotated. Then each backup has gone one place on. -/
theorem history_writeLine {p : Path} (h : WellFormed t) (ho : Opened t p)
    (hfiles : ∀ x, IsBackup p x → t.at? x ≠ some .directory) {line : String}
    (hroom : isFull t p line = true → t.at? (backup p 3) = none ∧ Short p) :
    history ((writeLine p line).apply t) p = history t p ++ line.toUTF8 ∧
      ∀ n, 1 ≤ n → n ≤ 3 → ((writeLine p line).apply t).at? (backup p n) =
        if isFull t p line then (if n = 1 then t.at? p else t.at? (backup p (n - 1)))
        else t.at? (backup p n) := by
  obtain ⟨d, name, rfl, -, -⟩ := ho.cases h
  rw [Change.apply, run_writeLine]
  split
  · rename_i hfull
    obtain ⟨hfree, hshort⟩ := hroom hfull
    obtain ⟨t', hrun, hfile, h1, h2, h3⟩ := rotate_file h ho hfiles hfree hshort
    obtain ⟨hwell, hopened, -⟩ := rotate_opened h ho hfiles
    rw [Change.apply, hrun] at hwell hopened
    obtain ⟨hhistory, hothers⟩ := history_append hwell hopened line
    have moved : history t' (d ++ [name]) = history t (d ++ [name]) := by
      have empty : bytesAt t' (d ++ [name]) = .empty := by
        rw [bytesAt, hfile]
        rfl
      rw [history, history, bytesAt_congr h3, bytesAt_congr h2, bytesAt_congr h1, empty,
        bytesAt_none hfree, ByteArray.append_empty, ByteArray.empty_append]
    rw [hrun]
    refine ⟨hhistory.trans (by rw [moved]), fun n hn1 hn3 => ?_⟩
    have kept := hothers (backup (d ++ [name]) n) (backup_ne d name n)
    rw [Change.apply] at kept
    rw [kept]
    obtain rfl | rfl | rfl : n = 1 ∨ n = 2 ∨ n = 3 := by omega
    · exact h1
    · exact h2
    · exact h3
  · obtain ⟨hhistory, hothers⟩ := history_append h ho line
    exact ⟨hhistory, fun n _ _ => hothers _ (backup_ne d name n)⟩

end Toolwright.Journal
