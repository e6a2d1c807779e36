import Mathlib
import Toolwright.FileTree.Change

/-!
# Well-formed file trees

In a well-formed tree each entry stands in a directory. A path that is followed in it ends at a
directory or in one, and making directories keeps the tree well-formed and all that is there.
-/

namespace Toolwright.FileTree

set_option autoImplicit false

variable {t t' t'' : FileTree}

/-- What stands somewhere stands in a directory, and only directories above have no name of their
own. -/
structure WellFormed (t : FileTree) : Prop where
  inside : ∀ {p : Path} {name : String}, t.at? (p ++ [name]) ≠ none → t.at? p = some .directory
  named : ∀ {p : Path}, t.at? (p ++ [".."]) ≠ none → p.all (· == "..") = true

theorem at?_above {p : Path} (h : p.isAbove = true) : t.at? p = some .directory := if_pos h

theorem at?_eq_find? {p : Path} (h : p.isAbove = false) : t.at? p = Table.find? t p :=
  if_neg (Bool.eq_false_iff.mp h)

theorem isAbove_of_all {p : Path} (h : p.all (· == "..") = true) : p.isAbove = true := by
  rw [Path.isAbove, h, Bool.or_true]

theorem at?_put {p : Path} {e : Entry} (hp : p.isAbove = false) (x : Path) :
    (t.put p e).at? x = if p = x then some e else t.at? x := by
  cases hx : x.isAbove with
  | true =>
    have hne : p ≠ x := by
      rintro rfl
      rw [hp] at hx
      cases hx
    rw [at?_above hx, at?_above hx, if_neg hne]
  | false => rw [at?_eq_find? hx, at?_eq_find? hx, put, Table.find?_insert]

/-- A file or a free place is not above the working directory. -/
theorem not_above {p : Path} (h : t.at? p ≠ some .directory) : p.isAbove = false :=
  Bool.eq_false_iff.mpr fun hp => h (at?_above hp)

theorem WellFormed.nothing_below (h : WellFormed t) {p : Path} (hp : t.at? p ≠ some .directory)
    {rest : Path} (hne : rest ≠ []) : t.at? (p ++ rest) = none := by
  induction rest using List.reverseRecOn with
  | nil => exact absurd rfl hne
  | append_singleton rest name ih =>
    rw [← List.append_assoc]
    by_contra hsome
    have hdir := h.inside hsome
    by_cases hrest : rest = []
    · rw [hrest, List.append_nil] at hdir
      exact hp hdir
    · rw [ih hrest] at hdir
      cases hdir

theorem WellFormed.put (h : WellFormed t) {d : Path} {name : String}
    (hd : t.at? d = some .directory) (hname : name ≠ "..") (hnone : t.at? (d ++ [name]) = none)
    (e : Entry) : WellFormed (t.put (d ++ [name]) e) := by
  have hplace : (d ++ [name]).isAbove = false := not_above (by rw [hnone]; exact nofun)
  have hne : d ++ [name] ≠ d := fun heq => by rw [← heq, hnone] at hd; cases hd
  constructor
  · intro p name' hsome
    rw [at?_put hplace] at hsome ⊢
    split at hsome
    · rename_i heq
      obtain ⟨rfl, -⟩ := List.append_inj' heq rfl
      rw [if_neg hne]
      exact hd
    · have hdir := h.inside hsome
      rw [if_neg]
      · exact hdir
      · rintro rfl
        rw [hnone] at hdir
        cases hdir
  · intro p hsome
    rw [at?_put hplace] at hsome
    split at hsome
    · rename_i heq
      exact absurd (List.cons.inj (List.append_inj' heq rfl).2).1 hname
    · exact h.named hsome

theorem wellFormed_nil : WellFormed [] := by
  have front : ∀ {p : Path} {name : String}, FileTree.at? [] (p ++ [name]) ≠ none →
      p = [] ∨ p.all (· == "..") = true := by
    intro p name h
    have above : (p ++ [name]).isAbove = true := by
      by_contra hp
      exact h (at?_eq_find? (Bool.eq_false_iff.mpr hp))
    rcases Bool.or_eq_true_iff.mp above with hroot | hall
    · exact .inl (List.append_inj' ((eq_of_beq hroot).trans (List.nil_append _).symm) rfl).1
    · rw [List.all_append, Bool.and_eq_true] at hall
      exact .inr hall.1
  constructor
  · intro p name hsome
    rcases front hsome with rfl | hall
    · exact at?_above rfl
    · exact at?_above (isAbove_of_all hall)
  · intro p hsome
    rcases front hsome with rfl | hall
    · rfl
    · exact hall

/-! ## Following paths -/

theorem WellFormed.at?_up (h : WellFormed t) {p : Path} (hp : t.at? p = some .directory) :
    t.at? p.up = some .directory := by
  cases p using List.reverseRecOn with
  | nil => exact at?_above rfl
  | append_singleton p name =>
    unfold Path.up
    rw [List.getLast?_concat]
    split
    · rename_i heq
      cases heq
    · rename_i heq
      obtain rfl := Option.some.inj heq
      have hall := h.named (by rw [hp]; exact nofun)
      exact at?_above (isAbove_of_all (by simp [hall]))
    · exact hp
    · rw [List.dropLast_concat]
      exact h.inside (by rw [hp]; exact nofun)

/-- A path that can be followed from a directory leads to a directory or to a place in one. -/
theorem WellFormed.walk_cases (h : WellFormed t) {here path p : Path}
    (hhere : t.at? here = some .directory) (hwalk : t.walk here path = .ok p) :
    t.at? p = some .directory ∨
      ∃ d name, p = d ++ [name] ∧ t.at? d = some .directory ∧ name ≠ ".." := by
  fun_induction walk t here path with
  | case1 here =>
    cases hwalk
    exact .inl hhere
  | case2 here name rest hdot ih => exact ih hhere hwalk
  | case3 here name rest _ hup ih => exact ih (h.at?_up hhere) hwalk
  | case4 => cases hwalk
  | case5 here name rest _ hup _ next hrest =>
    exact .inr ⟨here, name, (Except.ok.inj hwalk).symm, hhere, fun e => hup (by rw [e]; rfl)⟩
  | case6 here name rest _ _ _ next _ hnext ih => exact ih hnext hwalk
  | case7 => cases hwalk
  | case8 => cases hwalk

/-- A path can be followed as before where no directory is missing. -/
theorem walk_of_directories (hkept : ∀ x, t.at? x = some .directory → t'.at? x = some .directory)
    {here path p : Path} (hwalk : t.walk here path = .ok p) : t'.walk here path = .ok p := by
  fun_induction walk t here path with
  | case1 here => exact hwalk
  | case2 here name rest hdot ih =>
    rw [walk, if_pos hdot]
    exact ih hwalk
  | case3 here name rest hdot hup ih =>
    rw [walk, if_neg hdot, if_pos hup]
    exact ih hwalk
  | case4 => cases hwalk
  | case5 here name rest hdot hup hlong next hrest =>
    rw [walk, if_neg hdot, if_neg hup, if_neg hlong]
    exact (if_pos hrest).trans hwalk
  | case6 here name rest hdot hup hlong next hrest hnext ih =>
    rw [walk, if_neg hdot, if_neg hup, if_neg hlong]
    have hkept' : t'.at? (here ++ [name]) = some .directory := hkept _ hnext
    simp only [hrest, Bool.false_eq_true, if_false, hkept']
    exact ih hwalk
  | case7 => cases hwalk
  | case8 => cases hwalk

/-- A path with nothing to follow up or to leave out, but for the directories above at its head. -/
def Normal (p : Path) : Prop :=
  ∃ above names, p = above ++ names ∧ (∀ a ∈ above, a = "..") ∧ ∀ n ∈ names, n ≠ "." ∧ n ≠ ".."

theorem normal_up {p : Path} (h : Normal p) : Normal p.up := by
  obtain ⟨above, names, rfl, habove, hnames⟩ := h
  unfold Path.up
  have further : ∀ {p : Path}, p = above ++ names → names = [] → Normal (p ++ [".."]) := by
    rintro p rfl rfl
    refine ⟨above ++ [".."], [], by simp, fun a ha => ?_, fun _ hn => absurd hn List.not_mem_nil⟩
    exact (List.mem_append.mp ha).elim (habove a) fun h => List.mem_singleton.mp h
  split
  · rename_i hlast
    exact further rfl (List.append_eq_nil_iff.mp (List.getLast?_eq_none_iff.mp hlast)).2
  · rename_i hlast
    cases names using List.reverseRecOn with
    | nil => exact further rfl rfl
    | append_singleton names name =>
      rw [← List.append_assoc, List.getLast?_concat] at hlast
      exact absurd (Option.some.inj hlast) (hnames name (by simp)).2
  · exact ⟨above, names, rfl, habove, hnames⟩
  · rename_i hup _ hlast
    cases names using List.reverseRecOn with
    | nil =>
      rw [List.append_nil] at hlast
      exact absurd (habove _ (List.mem_of_getLast? hlast)) hup
    | append_singleton names name =>
      rw [← List.append_assoc, List.dropLast_concat]
      exact ⟨above, names, rfl, habove, fun n hn => hnames n (List.mem_append_left _ hn)⟩

theorem normal_normalize (path : String) : Normal (Path.normalize path) := by
  have step : ∀ (names p : Path), Normal p → Normal (names.foldl (fun p name =>
      if name == "." then p else if name == ".." then p.up else p ++ [name]) p) := by
    intro names
    induction names with
    | nil => exact fun p h => h
    | cons name names ih =>
      intro p h
      rw [List.foldl_cons]
      apply ih
      split
      · exact h
      · rename_i hdot
        split
        · exact normal_up h
        · rename_i hup
          obtain ⟨above, names', rfl, habove, hnames⟩ := h
          refine ⟨above, names' ++ [name], List.append_assoc _ _ _, habove, fun n hn => ?_⟩
          rcases List.mem_append.mp hn with hn | hn
          · exact hnames n hn
          · obtain rfl := List.mem_singleton.mp hn
            exact ⟨fun e => hdot (by rw [e]; rfl), fun e => hup (by rw [e]; rfl)⟩
  exact step _ _ ⟨[], [], rfl, fun _ h => absurd h List.not_mem_nil,
    fun _ h => absurd h List.not_mem_nil⟩

theorem walk_names {here names p : Path} (hnames : ∀ n ∈ names, n ≠ "." ∧ n ≠ "..")
    (hwalk : t.walk here names = .ok p) : p = here ++ names := by
  induction names generalizing here with
  | nil =>
    rw [List.append_nil]
    exact (Except.ok.inj hwalk).symm
  | cons name names ih =>
    obtain ⟨hdot, hup⟩ := hnames name List.mem_cons_self
    rw [walk, if_neg (by simpa using hdot), if_neg (by simpa using hup)] at hwalk
    split at hwalk
    · cases hwalk
    · cases names with
      | nil => exact (Except.ok.inj hwalk).symm
      | cons next names =>
        simp only [List.isEmpty_cons, Bool.false_eq_true, if_false] at hwalk
        split at hwalk
        · rw [ih (fun n hn => hnames n (List.mem_cons_of_mem _ hn)) hwalk, List.append_assoc]
          rfl
        · cases hwalk
        · cases hwalk

theorem walk_above {above here : Path} (hhere : ∀ a ∈ here, a = "..") (habove : ∀ a ∈ above, a = "..")
    (names : Path) : t.walk here (above ++ names) = t.walk (here ++ above) names := by
  induction above generalizing here with
  | nil => rw [List.append_nil, List.nil_append]
  | cons a above ih =>
    obtain rfl := habove a List.mem_cons_self
    have hup : here.up = here ++ [".."] := by
      cases here using List.reverseRecOn with
      | nil => rfl
      | append_singleton here b =>
        obtain rfl := hhere b (by simp)
        rw [Path.up, List.getLast?_concat]
        rfl
    rw [List.cons_append, walk, if_neg (by decide), if_pos (beq_self_eq_true ".."), hup, ih]
    · rw [List.append_assoc]
      rfl
    · intro b hb
      exact (List.mem_append.mp hb).elim (hhere b) fun h => List.mem_singleton.mp h
    · exact fun b hb => habove b (List.mem_cons_of_mem _ hb)

theorem Normal.walk {p p' : Path} (h : Normal p) (hwalk : t.walk [] p = .ok p') : p' = p := by
  obtain ⟨above, names, rfl, habove, hnames⟩ := h
  rw [walk_above (fun _ h => absurd h List.not_mem_nil) habove] at hwalk
  exact walk_names hnames hwalk

/-! ## Making directories -/

/-- What is there stays, and what is new are directories. -/
structure Grows (t t' : FileTree) : Prop where
  kept : ∀ x e, t.at? x = some e → t'.at? x = some e
  made : ∀ x e, t'.at? x = some e → t.at? x = some e ∨ e = .directory

theorem Grows.refl (t : FileTree) : Grows t t := ⟨fun _ _ h => h, fun _ _ h => .inl h⟩

theorem Grows.trans (h : Grows t t') (h' : Grows t' t'') : Grows t t'' :=
  ⟨fun x e hx => h'.kept x e (h.kept x e hx), fun x e hx =>
    (h'.made x e hx).elim (h.made x e) .inr⟩

/-- A change of well-formed trees that makes nothing but directories, whether it fails or not. -/
def Furnishes {α : Type} (c : Change α) : Prop :=
  ∀ t, WellFormed t → WellFormed (c.apply t) ∧ Grows t (c.apply t)

section Furnishing

variable {α β : Type}

theorem run_bind (c : Change α) (f : α → Change β) (t : FileTree) : (c >>= f).run t =
    match c.run t with
    | (.ok a, t') => (f a).run t'
    | (.error fault, t') => (.error fault, t') := by
  unfold Change.run
  simp only [bind, ExceptT.bind, ExceptT.mk, StateT.bind, ExceptT.bindCont, StateT.run]
  rcases c t with ⟨fault | a, t'⟩ <;> rfl

theorem run_tryCatch (c : Change α) (f : Fault → Change α) (t : FileTree) :
    (tryCatch c f : Change α).run t = match c.run t with
    | (.ok a, t') => (.ok a, t')
    | (.error fault, t') => (f fault).run t' := by
  unfold Change.run
  simp only [tryCatch, tryCatchThe, MonadExceptOf.tryCatch, ExceptT.tryCatch, ExceptT.mk, bind,
    StateT.bind, StateT.run]
  rcases c t with ⟨fault | a, t'⟩ <;> rfl

theorem furnishes_of_unchanged {c : Change α} (h : ∀ t, c.apply t = t) : Furnishes c :=
  fun t ht => by rw [h]; exact ⟨ht, .refl t⟩

theorem furnishes_pure (a : α) : Furnishes (pure a) := furnishes_of_unchanged fun _ => rfl

theorem furnishes_throw (fault : Fault) : Furnishes (throw fault : Change α) :=
  furnishes_of_unchanged fun _ => rfl

theorem furnishes_get : Furnishes (get : Change FileTree) := furnishes_of_unchanged fun _ => rfl

theorem Furnishes.bind {c : Change α} {f : α → Change β} (hc : Furnishes c)
    (hf : ∀ a, Furnishes (f a)) : Furnishes (c >>= f) := by
  intro t ht
  obtain ⟨hwell, hgrows⟩ := hc t ht
  rw [Change.apply, run_bind]
  rw [Change.apply] at hwell hgrows
  rcases hrun : c.run t with ⟨fault | a, t'⟩ <;> rw [hrun] at hwell hgrows
  · exact ⟨hwell, hgrows⟩
  · obtain ⟨hwell', hgrows'⟩ := hf a t' hwell
    exact ⟨hwell', hgrows.trans hgrows'⟩

theorem Furnishes.tryCatch {c : Change α} {f : Fault → Change α} (hc : Furnishes c)
    (hf : ∀ fault, Furnishes (f fault)) : Furnishes (tryCatch c f) := by
  intro t ht
  obtain ⟨hwell, hgrows⟩ := hc t ht
  rw [Change.apply, run_tryCatch]
  rw [Change.apply] at hwell hgrows
  rcases hrun : c.run t with ⟨fault | a, t'⟩ <;> rw [hrun] at hwell hgrows
  · obtain ⟨hwell', hgrows'⟩ := hf fault t' hwell
    exact ⟨hwell', hgrows.trans hgrows'⟩
  · exact ⟨hwell, hgrows⟩

end Furnishing

theorem apply_makeDirectory (path : String) (t : FileTree) : (makeDirectory path).apply t =
    if path.contains '\x00' then t
    else
      match t.place path with
      | .error _ => t
      | .ok p => if (t.at? p).isSome then t else t.put p .directory := by
  unfold makeDirectory
  split
  · rfl
  · show ((match t.place path with
      | .error fault => throw (.file fault)
      | .ok p =>
        if (t.at? p).isSome then throw (.file .alreadyThere) else set (t.put p .directory) :
        Change Unit).run t).2 = _
    cases t.place path with
    | error fault => rfl
    | ok p =>
      simp only
      split <;> rfl

theorem WellFormed.put_cases (h : WellFormed t) {path : String} {p : Path}
    (hplace : t.place path = .ok p) (hnone : t.at? p = none) (e : Entry) :
    WellFormed (t.put p e) ∧ ∀ x, (t.put p e).at? x = if p = x then some e else t.at? x := by
  have hwalk : t.walk [] (Path.parts path) = .ok p := by
    unfold place at hplace
    split at hplace
    · cases hplace
    · split at hplace
      · cases hplace
      · exact hplace
  rcases h.walk_cases (at?_above rfl) hwalk with hdir | ⟨d, name, rfl, hd, hname⟩
  · rw [hnone] at hdir
    cases hdir
  · exact ⟨h.put hd hname hnone e, at?_put (not_above (by rw [hnone]; exact nofun))⟩

theorem furnishes_makeDirectory (path : String) : Furnishes (makeDirectory path) := by
  intro t ht
  rw [apply_makeDirectory]
  split
  · exact ⟨ht, .refl t⟩
  · cases hplace : t.place path with
    | error fault => exact ⟨ht, .refl t⟩
    | ok p =>
      simp only
      split
      · exact ⟨ht, .refl t⟩
      · rename_i hfree
        have hnone : t.at? p = none := Option.not_isSome_iff_eq_none.mp hfree
        obtain ⟨hwell, hput⟩ := ht.put_cases hplace hnone .directory
        refine ⟨hwell, fun x e hx => ?_, fun x e hx => ?_⟩
        · rw [hput, if_neg]
          · exact hx
          · rintro rfl
            rw [hnone] at hx
            cases hx
        · rw [hput] at hx
          split at hx
          · exact .inr (Option.some.inj hx).symm
          · exact .inl hx

theorem furnishes_ensureDirectory (path : String) : Furnishes (ensureDirectory path) := by
  refine (furnishes_makeDirectory path).tryCatch fun fault => ?_
  split
  · refine furnishes_get.bind fun t => ?_
    split
    · exact furnishes_throw _
    · exact furnishes_pure _
  · exact furnishes_throw _

theorem furnishes_makeDirectoriesWithin (n : Nat) (path : String) :
    Furnishes (makeDirectoriesWithin n path) := by
  induction n generalizing path with
  | zero => exact furnishes_ensureDirectory path
  | succ n ih =>
    unfold makeDirectoriesWithin
    rcases Path.split path with ⟨front, name⟩
    refine furnishes_get.bind fun t => ?_
    split
    · exact furnishes_ensureDirectory path
    · refine Furnishes.bind ?_ fun _ => ?_
      · refine (ih _).tryCatch fun fault => ?_
        split
        · exact furnishes_pure ()
        · exact furnishes_throw _
      · split
        · exact furnishes_ensureDirectory path
        · exact furnishes_pure ()

/-! ## Opening files -/

theorem run_openAppend (p : Path) (t : FileTree) : (openAppend p).run t =
    match t.walk [] p with
    | .error fault => (.error (.file fault), t)
    | .ok p =>
      match t.at? p with
      | some .directory => (.error (.file .isDirectory), t)
      | some (.file _) => (.ok (), t)
      | none => (.ok (), t.put p (.file (.text ""))) := by
  show (match t.walk [] p with
    | .error fault => throw (.file fault)
    | .ok p =>
      match t.at? p with
      | some .directory => throw (.file .isDirectory)
      | some (.file _) => pure ()
      | none => set (t.put p (.file (.text ""))) : Change Unit).run t = _
  cases t.walk [] p with
  | error fault => rfl
  | ok p =>
    simp only
    split <;> rfl

/-- A file that can be appended to. -/
structure Opened (t : FileTree) (p : Path) : Prop where
  walk : t.walk [] p = .ok p
  file : ∃ c, t.at? p = some (.file c)

theorem Opened.not_directory {p : Path} (h : Opened t p) : t.at? p ≠ some .directory := by
  obtain ⟨c, hc⟩ := h.file
  rw [hc]
  exact nofun

theorem Opened.cases {p : Path} (h : Opened t p) (hwell : WellFormed t) :
    ∃ d name, p = d ++ [name] ∧ t.at? d = some .directory ∧ name ≠ ".." := by
  rcases hwell.walk_cases (at?_above rfl) h.walk with hdir | hplace
  · exact absurd hdir h.not_directory
  · exact hplace

theorem of_openAppend {p : Path} (hnormal : Normal p) (hrun : (openAppend p).run t = (.ok (), t')) :
    t.walk [] p = .ok p ∧ t.at? p ≠ some .directory := by
  rw [run_openAppend] at hrun
  cases hwalk : t.walk [] p with
  | error fault =>
    rw [hwalk] at hrun
    cases hrun
  | ok p' =>
    obtain rfl := hnormal.walk hwalk
    refine ⟨rfl, fun hdir => ?_⟩
    rw [hwalk] at hrun
    simp only [hdir] at hrun
    cases hrun

theorem WellFormed.open (h : WellFormed t) {p : Path} (hwalk : t.walk [] p = .ok p)
    (hp : t.at? p ≠ some .directory) : ∃ t', (openAppend p).run t = (.ok (), t') ∧ WellFormed t' ∧
      Opened t' p ∧
      ∀ x, t'.at? x = if t.at? x = none ∧ p = x then some (.file (.text "")) else t.at? x := by
  rw [run_openAppend, hwalk]
  simp only
  split
  · exact absurd ‹_› hp
  · rename_i c hfile
    refine ⟨t, rfl, h, ⟨hwalk, c, hfile⟩, fun x => (if_neg ?_).symm⟩
    rintro ⟨hnone, rfl⟩
    rw [hfile] at hnone
    cases hnone
  · rename_i hnone
    rcases h.walk_cases (at?_above rfl) hwalk with hdir | ⟨d, name, rfl, hd, hname⟩
    · exact absurd hdir hp
    have hput := at?_put (t := t) (e := .file (.text "")) (not_above hp)
    refine ⟨_, rfl, h.put hd hname hnone _, ⟨walk_of_directories (fun x hx => ?_) hwalk, _,
      (hput _).trans (if_pos rfl)⟩, fun x => ?_⟩
    · rw [hput, if_neg]
      · exact hx
      · rintro rfl
        exact hp hx
    · rw [hput]
      by_cases hx : d ++ [name] = x
      · rw [if_pos hx, if_pos ⟨hx ▸ hnone, hx⟩]
      · rw [if_neg hx, if_neg fun e => hx e.2]

/-- Another content in place of that of a file keeps a tree well-formed. -/
theorem WellFormed.put_file (h : WellFormed t) {p : Path} {c : Content}
    (hp : t.at? p = some (.file c)) (c' : Content) : WellFormed (t.put p (.file c')) := by
  have hput := at?_put (t := t) (e := .file c') (not_above (by rw [hp]; exact nofun : t.at? p ≠ _))
  have same : ∀ {x}, (t.put p (.file c')).at? x ≠ none → t.at? x ≠ none := by
    intro x hx
    rw [hput] at hx
    split at hx
    · rename_i heq
      rw [← heq, hp]
      exact nofun
    · exact hx
  refine ⟨fun hsome => ?_, fun hsome => h.named (same hsome)⟩
  have hdir := h.inside (same hsome)
  rw [hput, if_neg]
  · exact hdir
  · rintro rfl
    rw [hp] at hdir
    cases hdir

end Toolwright.FileTree
