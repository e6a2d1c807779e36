import Toolwright.Journal.Basic
import Toolwright.Proofs.FileTree.WellFormed

/-!
# Setting a journal up

A setup that succeeds leaves one stream and at most one log file, and the level that it asks for.
The log file is opened behind what it holds, after the directories above it are made.
-/

namespace Toolwright.Journal

set_option autoImplicit false

open FileTree

variable {j : Journal} {s : Setup} {t t' t'' : FileTree}

/-- The place of the log file that a setup asks for. -/
def Setup.logPath? (s : Setup) : Option Path :=
  if s.logFileInForce.truthy then (pathText s.logFileInForce).toOption.map Path.normalize else none

def Setup.threshold? (s : Setup) : Option Int :=
  match s.levelInForce with
  | .null => none
  | level => (readLevel level).toOption.bind Value.asInt?

theorem run_openLog (v : Value) (t : FileTree) : (openLog v).run t =
    match pathText v with
    | .error fault => (.error fault, t)
    | .ok path =>
      match (if !(Path.parentText path).isEmpty then makeDirectories (Path.parentText path)
        else pure () : Change Unit).run t with
      | (.error fault, t') => (.error fault, t')
      | (.ok _, t') =>
        if path.contains '\x00' then (.error (.nulInPath "embedded null byte"), t')
        else
          match (openAppend (Path.normalize path)).run t' with
          | (.error fault, t'') => (.error fault, t'')
          | (.ok _, t'') => (.ok (Path.normalize path), t'') := by
  have htext : Change.run (ExceptT.mk (pure (pathText v)) : Change String) t =
      (pathText v, t) := rfl
  unfold openLog
  rw [run_bind, htext]
  cases pathText v with
  | error fault => rfl
  | ok path =>
    simp only
    have tail : ∀ t' : FileTree, Change.run (do
        if path.contains '\x00' then throw (.nulInPath "embedded null byte")
        openAppend (Path.normalize path)
        return Path.normalize path : Change Path) t' =
        if path.contains '\x00' then (.error (.nulInPath "embedded null byte"), t')
        else
          match (openAppend (Path.normalize path)).run t' with
          | (.error fault, t'') => (.error fault, t'')
          | (.ok _, t'') => (.ok (Path.normalize path), t'') := by
      intro t'
      split
      · rfl
      · rw [run_bind]
        rcases (openAppend (Path.normalize path)).run t' with ⟨fault | _, t''⟩ <;> rfl
    split
    · rw [run_bind]
      rcases (makeDirectories (Path.parentText path)).run t with ⟨fault | _, t'⟩
      · rfl
      · exact tail t'
    · exact tail t

theorem furnishes_parent (parent : String) : Furnishes
    (if !parent.isEmpty then makeDirectories parent else pure () : Change Unit) := by
  split
  · exact furnishes_makeDirectoriesWithin _ _
  · exact furnishes_pure ()

theorem of_openLog {v : Value} {p : Path} (h : (openLog v).run t = (.ok p, t')) :
    (pathText v).toOption.map Path.normalize = some p ∧ Normal p ∧
      ∃ t₁, (WellFormed t → WellFormed t₁ ∧ Grows t t₁) ∧ (openAppend p).run t₁ = (.ok (), t') := by
  rw [run_openLog] at h
  cases htext : pathText v with
  | error fault =>
    rw [htext] at h
    cases h
  | ok path =>
    rw [htext] at h
    simp only at h
    have hgrows := furnishes_parent (Path.parentText path) t
    unfold Change.apply at hgrows
    split at h
    · cases h
    · rename_i t₁ hrun
      rw [hrun] at hgrows
      split at h
      · cases h
      · split at h
        · cases h
        · rename_i _ t₂ hopen
          obtain ⟨hp, rfl⟩ := Prod.mk.inj h
          obtain rfl := Except.ok.inj hp
          exact ⟨rfl, normal_normalize path, t₁, hgrows, hopen⟩

/-- What a tree holds after a log file was opened. -/
structure Opens (p : Path) (t t' : FileTree) : Prop where
  wellFormed : WellFormed t'
  opened : Opened t' p
  kept : ∀ x e, t.at? x = some e → t'.at? x = some e
  made : ∀ x e, t'.at? x = some e →
    t.at? x = some e ∨ e = .directory ∨ (x = p ∧ e = .file (.text ""))

theorem opens_of_openLog (h : WellFormed t) {v : Value} {p : Path}
    (hrun : (openLog v).run t = (.ok p, t')) : Opens p t t' := by
  obtain ⟨-, hnormal, t₁, hgrows, hopen⟩ := of_openLog hrun
  obtain ⟨hwell₁, hgrows⟩ := hgrows h
  obtain ⟨hwalk, hp⟩ := of_openAppend hnormal hopen
  obtain ⟨t₂, hopen₂, hwell, hopened, hat⟩ := hwell₁.open hwalk hp
  obtain rfl := (Prod.mk.inj (hopen.symm.trans hopen₂)).2
  refine ⟨hwell, hopened, fun x e hx => ?_, fun x e hx => ?_⟩
  · rw [hat, if_neg]
    · exact hgrows.kept x e hx
    · rintro ⟨hnone, -⟩
      rw [hgrows.kept x e hx] at hnone
      cases hnone
  · rw [hat] at hx
    split at hx
    · rename_i hnew
      exact .inr (.inr ⟨hnew.2.symm, (Option.some.inj hx).symm⟩)
    · exact (hgrows.made x e hx).imp_right .inl

/-- A setup that succeeds replaces the handlers, sets the level and opens the log file, if there is
one. -/
structure IsSetUp (j : Journal) (s : Setup) (j' : Journal) : Prop where
  handlers : j'.handlers = some ⟨s.logPath?⟩
  logged : s.logPath?.isSome = s.logFileInForce.truthy
  level : j'.threshold = s.threshold?.getD j.threshold
  stream : j'.stream = j.stream
  unlogged : s.logPath? = none → j'.files = j.files
  opens : ∀ p, s.logPath? = some p → (openLog s.logFileInForce).run j.files = (.ok p, j'.files)

theorem of_readLevel {v l : Value} (h : readLevel v = .ok l) : ∃ n, l.asInt? = some n := by
  unfold readLevel at h
  split at h
  · cases h
    exact ⟨_, rfl⟩
  · cases h
    exact ⟨_, rfl⟩
  · split at h
    · cases h
      exact ⟨_, rfl⟩
    · cases h
  · cases htext : v.text with
    | error fault =>
      rw [htext] at h
      cases h
    | ok text =>
      rw [htext] at h
      cases h

def leveled (j : Journal) (s : Setup) : Except Fault Value :=
  match s.levelInForce with
  | .null => .ok j.level
  | level => readLevel level

theorem setUp_eq (j : Journal) (s : Setup) : setUp j s =
    match leveled j s with
    | .error fault => (.error fault, { j with handlers := some ⟨none⟩ })
    | .ok level =>
      if s.logFileInForce.truthy then
        match (openLog s.logFileInForce).run j.files with
        | (.error fault, files) => (.error fault, { j with level, handlers := some ⟨none⟩, files })
        | (.ok p, files) => (.ok (), { j with level, handlers := some ⟨some p⟩, files })
      else (.ok (), { j with level, handlers := some ⟨none⟩ }) := by
  unfold setUp leveled
  cases s.levelInForce with
  | null => rfl
  | _ => 
    dsimp only
    rcases readLevel _ with fault | l <;> rfl

theorem of_leveled {level : Value} (h : leveled j s = .ok level) :
    (level.asInt?).getD 0 = s.threshold?.getD j.threshold := by
  unfold leveled at h
  unfold Setup.threshold?
  split at h
  · obtain rfl := Except.ok.inj h
    rfl
  · obtain ⟨n, hn⟩ := of_readLevel h
    simp [h, hn, Except.toOption]

theorem isSetUp (h : (setUp j s).1 = .ok ()) : IsSetUp j s (setUp j s).2 := by
  rw [setUp_eq] at h ⊢
  cases hlevel : leveled j s with
  | error fault =>
    rw [hlevel] at h
    cases h
  | ok level =>
    rw [hlevel] at h
    simp only at h ⊢
    have hthreshold := of_leveled hlevel
    split at h
    · rename_i hfile
      split at h
      · cases h
      · rename_i p files hrun
        have hpath : s.logPath? = some p := (if_pos hfile).trans (of_openLog hrun).1
        rw [if_pos hfile]
        refine ⟨by rw [hpath], by rw [hpath, hfile]; rfl, hthreshold, rfl, fun hnone => ?_,
          fun p' hp' => ?_⟩
        · rw [hpath] at hnone
          cases hnone
        · rw [hpath] at hp'
          rw [← Option.some.inj hp']
          exact hrun
    · rename_i hfile
      have hpath : s.logPath? = none := if_neg hfile
      rw [if_neg hfile]
      refine ⟨by rw [hpath], by rw [hpath]; simpa using hfile, hthreshold, rfl, fun _ => rfl,
        fun p hp => ?_⟩
      rw [hpath] at hp
      cases hp

theorem setUp_opens (path front : String) (made : FileTree) {level : Value} {p : Path}
    (hlevel : leveled j s = .ok level) (hpath : s.logFileInForce = .str path)
    (htruthy : (Value.str path).truthy = true)
    (hfront : Path.parentText path = front) (hnul : path.contains '\x00' = false)
    (hp : Path.normalize path = p)
    (hmade : (if !front.isEmpty then makeDirectories front else pure () : Change Unit).run j.files =
      (.ok (), made))
    (hopen : (openAppend p).run made = (.ok (), t')) :
    setUp j s = (.ok (), { j with level, handlers := some ⟨some p⟩, files := t' }) := by
  have hrun : (openLog s.logFileInForce).run j.files = (.ok p, t') := by
    rw [run_openLog, hpath]
    simp only [pathText, hfront, hmade, hnul, hp, hopen, Bool.false_eq_true, if_false]
  rw [setUp_eq, hlevel]
  simp only
  rw [hrun, hpath, if_pos htruthy]

theorem logPath_of_setUp {j' : Journal} {file : Option Path} (h : setUp j s = (.ok (), j'))
    (hj' : j'.handlers = some ⟨file⟩) : s.logPath? = file := by
  have hs := (isSetUp (congrArg Prod.fst h)).handlers
  rw [h, hj'] at hs
  exact (Handlers.mk.inj (Option.some.inj hs)).symm

end Toolwright.Journal
