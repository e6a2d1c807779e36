import Toolwright.Proofs.Journal.Rotation
import Toolwright.Proofs.Journal.Setup

/-!
# What a journal writes

A journal is set up again and again, and records are emitted in between. Each setup leaves one
stream and at most one log file in force. A record is written once to the places in force, behind all
that was written there, and nowhere else. What was written to a log file is read from its backups and
the file itself.
-/

namespace Toolwright.Journal

set_option autoImplicit false

open FileTree

/-! ## Courses -/

/-- A journal is set up, or a record is emitted under the time that the clock shows. -/
inductive Act where
  | setup (s : Setup)
  | emit (time : String) (r : Record)

def next (j : Journal) : Act → Journal
  | .setup s => (setUp j s).2
  | .emit time r => emit time j r

def course (j : Journal) (acts : List Act) : Journal := acts.foldl next j

/-- All setups succeed. -/
def Succeeds (j : Journal) (acts : List Act) : Prop :=
  ∀ front s rest, acts = front ++ .setup s :: rest → (setUp (course j front) s).1 = .ok ()

/-- The log files that a course asks for. -/
def IsLog (acts : List Act) (p : Path) : Prop := ∃ s, Act.setup s ∈ acts ∧ s.logPath? = some p

/-- The level and the log file that records are held against. -/
structure InForce where
  level : Int
  file : Option Path

namespace InForce

def after (f : InForce) : Act → InForce
  | .setup s => ⟨s.threshold?.getD f.level, s.logPath?⟩
  | .emit _ _ => f

def Files (f : InForce) (p : Path) (r : Record) : Prop :=
  f.level ≤ r.level ∧ fileLevel ≤ r.level ∧ f.file = some p

instance (f : InForce) (p : Path) (r : Record) : Decidable (f.Files p r) :=
  inferInstanceAs (Decidable (_ ∧ _))

def streamed (f : InForce) : Act → String
  | .setup _ => ""
  | .emit time r => if f.level ≤ r.level then line time r else ""

def filed (p : Path) (f : InForce) : Act → String
  | .setup _ => ""
  | .emit time r => if f.Files p r then line time r else ""

/-- What the acts of a course write to a place, in their order. -/
def written (place : InForce → Act → String) (f : InForce) : List Act → String
  | [] => ""
  | a :: acts => place f a ++ written place (f.after a) acts

end InForce

def inForce (j : Journal) : InForce := ⟨j.threshold, j.handlers.bind (·.file)⟩

def rolls (p : Path) (j : Journal) : Act → Nat
  | .setup _ => 0
  | .emit time r => if j.inForce.Files p r ∧ isFull j.files p (line time r) = true then 1 else 0

/-- How often a file is rotated. -/
def rollovers (p : Path) (j : Journal) : List Act → Nat
  | [] => 0
  | a :: acts => rolls p j a + rollovers p (next j a) acts

variable {j : Journal} {s : Setup} {t t' t'' : FileTree}

/-! ## Log files -/

def FreeAbove (t : FileTree) (p : Path) (n : Nat) : Prop :=
  ∀ m, n < m → m ≤ backupCount → t.at? (backup p m) = none

/-- A text is added to a log file, which is rotated a number of times. As long as there are backups
left for that, nothing is lost. -/
def Logged (p : Path) (text : String) (rolled : Nat) (t t' : FileTree) : Prop :=
  ∀ n, FreeAbove t p n → n + rolled ≤ backupCount → (0 < rolled → Short p) →
    history t' p = history t p ++ text.toUTF8 ∧ FreeAbove t' p (n + rolled)

theorem Logged.trans {p : Path} {text text' : String} {a b : Nat} (h : Logged p text a t t')
    (h' : Logged p text' b t' t'') : Logged p (text ++ text') (a + b) t t'' := by
  intro n hfree hcount hshort
  obtain ⟨hhistory, hfree₁⟩ := h n hfree (by omega) fun ha => hshort (by omega)
  obtain ⟨hhistory', hfree₂⟩ := h' (n + a) hfree₁ (by omega) fun hb => hshort (by omega)
  refine ⟨?_, by rwa [← Nat.add_assoc]⟩
  rw [hhistory', hhistory, ByteArray.append_assoc]
  exact congrArg _ String.toByteArray_append.symm

theorem Logged.of_eq {p : Path} (hhistory : history t' p = history t p)
    (hfree : ∀ n, FreeAbove t p n → FreeAbove t' p n) : Logged p "" 0 t t' := by
  intro n hn _ _
  refine ⟨?_, hfree n hn⟩
  rw [hhistory]
  exact ByteArray.append_empty.symm

/-- What is not a log file or a backup of one stays as it is, but for directories that are made. -/
def Spares (logs : Path → Prop) (t t' : FileTree) : Prop :=
  ∀ x, (∀ p, logs p → ¬ Belongs p x) →
    t'.at? x = t.at? x ∨ t.at? x = none ∧ t'.at? x = some .directory

theorem Spares.refl (logs : Path → Prop) (t : FileTree) : Spares logs t t := fun _ _ => .inl rfl

theorem Spares.trans {logs : Path → Prop} (h : Spares logs t t') (h' : Spares logs t' t'') :
    Spares logs t t'' := by
  intro x hx
  rcases h x hx with heq | ⟨hnone, hmade⟩ <;> rcases h' x hx with heq' | ⟨hnone', hmade'⟩
  · exact .inl (heq'.trans heq)
  · exact .inr ⟨heq.symm.trans hnone', hmade'⟩
  · exact .inr ⟨hnone, heq'.trans hmade⟩
  · rw [hmade] at hnone'
    cases hnone'

/-- Log files none of which is a backup of another one. -/
structure Distinct (logs : Path → Prop) : Prop where
  named : ∀ p, logs p → p ≠ []
  apart : ∀ p q, logs p → logs q → ¬ IsBackup p q

theorem Distinct.not_belongs {logs : Path → Prop} (h : Distinct logs) {p q x : Path} (hp : logs p)
    (hq : logs q) (hne : q ≠ p) (hx : Belongs q x) : ¬ Belongs p x := by
  rintro (rfl | ⟨n, h1, h3, rfl⟩)
  · rcases hx with rfl | hx
    · exact hne rfl
    · exact h.apart q x hq hp hx
  · rcases hx with hx | ⟨m, -, hm, hx⟩
    · exact h.apart p q hp hq ⟨n, h1, h3, hx.symm⟩
    · obtain ⟨d, name, rfl⟩ := (List.eq_nil_or_concat' p).resolve_left (h.named p hp)
      obtain ⟨d', name', rfl⟩ := (List.eq_nil_or_concat' q).resolve_left (h.named q hq)
      exact hne (backup_inj (Nat.le_trans hm (by decide)) (Nat.le_trans h3 (by decide)) hx.symm).1

theorem belongs_backup (p : Path) {n : Nat} (h1 : 1 ≤ n) (h3 : n ≤ 3) : Belongs p (backup p n) :=
  .inr (isBackup_backup p h1 h3)

theorem Logged.of_unchanged {p : Path} (h : ∀ x, Belongs p x → t'.at? x = t.at? x) :
    Logged p "" 0 t t' := by
  refine .of_eq ?_ fun n hn m hm h3 => ?_
  · unfold history
    rw [bytesAt_congr (h _ (belongs_backup p (by decide) (by decide))),
      bytesAt_congr (h _ (belongs_backup p (by decide) (by decide))),
      bytesAt_congr (h _ (belongs_backup p (by decide) (by decide))),
      bytesAt_congr (h p (.inl rfl))]
  · rw [h _ (belongs_backup p (by omega) h3)]
    exact hn m hm h3

/-! ## One act -/

/-- A journal that is set up, with its log file open. -/
structure Sound (j : Journal) : Prop where
  files : WellFormed j.files
  handlers : j.handlers ≠ none
  opened : ∀ p, j.inForce.file = some p → Opened j.files p

/-- What stands between two journals: what was added to the stream and to each log file, and how
often the log file was rotated. -/
structure Accounts (logs : Path → Prop) (streamed : String) (filed : Path → String)
    (rolled : Path → Nat) (j j' : Journal) : Prop where
  stream : j'.stream = j.stream ++ streamed
  filed : ∀ p, logs p → Logged p (filed p) (rolled p) j.files j'.files
  others : Spares logs j.files j'.files

variable {logs : Path → Prop} {time : String} {r : Record}

theorem Opens.bytesAt {p : Path} (h : Opens p t t') (x : Path) : bytesAt t' x = bytesAt t x := by
  cases hx : t.at? x with
  | some e => exact bytesAt_congr ((h.kept x e hx).trans hx.symm)
  | none =>
    cases hx' : t'.at? x with
    | none => exact bytesAt_congr (hx'.trans hx.symm)
    | some e =>
      rw [bytesAt_none hx]
      rcases h.made x e hx' with hold | rfl | ⟨-, rfl⟩
      · rw [hx] at hold
        cases hold
      · unfold Journal.bytesAt
        rw [hx']
      · unfold Journal.bytesAt
        rw [hx']
        rfl

theorem Opens.logged (h : Distinct logs) {p q : Path} (hp : logs p) (hq : logs q)
    (hdirs : ∀ x, IsBackup q x → t'.at? x ≠ some .directory) (hopens : Opens p t t') :
    Logged q "" 0 t t' := by
  refine .of_eq ?_ fun n hn m hm h3 => ?_
  · unfold history
    rw [hopens.bytesAt, hopens.bytesAt, hopens.bytesAt, hopens.bytesAt]
  · have hbackup := isBackup_backup q (n := m) (by omega) h3
    by_contra hsome
    obtain ⟨e, he⟩ := Option.ne_none_iff_exists'.mp hsome
    rcases hopens.made _ e he with hold | rfl | ⟨hx, -⟩
    · rw [hn m hm h3] at hold
      cases hold
    · exact hdirs _ hbackup he
    · exact h.apart q p hq hp (hx ▸ hbackup)

theorem Opens.spares {p : Path} (hp : logs p) (hopens : Opens p t t') : Spares logs t t' := by
  intro x hx
  cases hold : t.at? x with
  | some e => exact .inl (hopens.kept x e hold)
  | none =>
    cases hnew : t'.at? x with
    | none => exact .inl rfl
    | some e =>
      rcases hopens.made x e hnew with hsome | rfl | ⟨rfl, -⟩
      · rw [hold] at hsome
        cases hsome
      · exact .inr ⟨rfl, rfl⟩
      · exact absurd (.inl rfl) (hx x hp)

theorem setup_accounts (hwell : WellFormed j.files) (hs : (setUp j s).1 = .ok ())
    (hlogs : Distinct logs) (hp : ∀ p, s.logPath? = some p → logs p)
    (hdirs : ∀ p, logs p → ∀ x, IsBackup p x → (setUp j s).2.files.at? x ≠ some .directory) :
    Sound (setUp j s).2 ∧ (setUp j s).2.inForce = j.inForce.after (.setup s) ∧
      Accounts logs "" (fun _ => "") (fun _ => 0) j (setUp j s).2 := by
  have h := isSetUp hs
  have inForce : (setUp j s).2.inForce = j.inForce.after (.setup s) := by
    rw [Journal.inForce, h.handlers, h.level]
    rfl
  have handlers : (setUp j s).2.handlers ≠ none := by
    rw [h.handlers]
    exact nofun
  have stream : (setUp j s).2.stream = j.stream ++ "" := by rw [h.stream, String.append_empty]
  cases hlog : s.logPath? with
  | none =>
    have same := h.unlogged hlog
    refine ⟨⟨same ▸ hwell, handlers, fun p hfile => ?_⟩, inForce, stream,
      fun p _ => .of_unchanged fun x _ => by rw [same], same ▸ .refl logs j.files⟩
    rw [inForce] at hfile
    exact absurd (hlog.symm.trans hfile) nofun
  | some p =>
    have hopens := opens_of_openLog hwell (h.opens p hlog)
    refine ⟨⟨hopens.wellFormed, handlers, fun q hfile => ?_⟩, inForce, stream,
      fun q hq => hopens.logged hlogs (hp p hlog) hq (hdirs q hq), hopens.spares (hp p hlog)⟩
    rw [inForce] at hfile
    obtain rfl := Option.some.inj (hlog.symm.trans hfile)
    exact hopens.opened

theorem emit_cases (hhandlers : j.handlers ≠ none) (hr : 0 < r.level) (time : String) :
    (∃ p, j.inForce.level ≤ r.level ∧ j.inForce.Files p r ∧
      emit time j r = { j with
        stream := j.stream ++ line time r
        files := (writeLine p (line time r)).apply j.files }) ∨
    (j.inForce.level ≤ r.level ∧ (∀ p, ¬ j.inForce.Files p r) ∧
      emit time j r = { j with stream := j.stream ++ line time r }) ∨
    (¬ j.inForce.level ≤ r.level ∧ (∀ p, ¬ j.inForce.Files p r) ∧ emit time j r = j) := by
  obtain ⟨handlers, hj⟩ := Option.ne_none_iff_exists'.mp hhandlers
  have hfile : j.inForce.file = handlers.file := by rw [inForce, hj]; rfl
  unfold emit
  by_cases hlevel : j.inForce.level ≤ r.level
  · have hwritten : ¬ (decide (r.level ≤ 0) || decide (r.level < j.threshold)) = true := by
      simpa using ⟨hr, hlevel⟩
    rw [if_neg hwritten, hj]
    cases hp : handlers.file with
    | none =>
      refine .inr (.inl ⟨hlevel, fun p hfiles => ?_, by simp only [hp]⟩)
      exact absurd ((hfile.trans hp).symm.trans hfiles.2.2) nofun
    | some p =>
      by_cases hhigh : fileLevel ≤ r.level
      · refine .inl ⟨p, hlevel, ⟨hlevel, hhigh, hfile.trans hp⟩, ?_⟩
        simp only [hp, if_neg (Int.not_lt.mpr hhigh)]
      · refine .inr (.inl ⟨hlevel, fun p hfiles => hhigh hfiles.2.1, ?_⟩)
        simp only [hp, if_pos (Int.not_le.mp hhigh)]
  · have hskipped : (decide (r.level ≤ 0) || decide (r.level < j.threshold)) = true := by
      simpa using .inr (Int.not_le.mp hlevel)
    exact .inr (.inr ⟨hlevel, fun p hfiles => hlevel hfiles.1, if_pos hskipped⟩)

theorem logged_writeLine {p : Path} (h : WellFormed t) (ho : Opened t p)
    (hfiles : ∀ x, IsBackup p x → t.at? x ≠ some .directory) (text : String) :
    Logged p text (if isFull t p text = true then 1 else 0) t ((writeLine p text).apply t) := by
  intro n hfree hcount hshort
  have hroom : isFull t p text = true → t.at? (backup p 3) = none ∧ Short p := by
    intro hfull
    rw [if_pos hfull] at hcount hshort
    exact ⟨hfree 3 hcount (Nat.le_refl 3), hshort Nat.one_pos⟩
  obtain ⟨hhistory, hbackups⟩ := history_writeLine h ho hfiles hroom
  refine ⟨hhistory, fun m hm h3 => ?_⟩
  rw [hbackups m (by omega) h3]
  split
  · rename_i hfull
    rw [if_pos hfull] at hm
    rw [if_neg (by omega)]
    exact hfree (m - 1) (by omega) (by omega)
  · exact hfree m (by omega) h3

theorem emit_accounts (hj : Sound j) (hlogs : Distinct logs)
    (hp : ∀ p, j.inForce.file = some p → logs p)
    (hdirs : ∀ p, logs p → ∀ x, IsBackup p x → j.files.at? x ≠ some .directory)
    (hr : 0 < r.level) (time : String) :
    Sound (emit time j r) ∧ (emit time j r).inForce = j.inForce ∧
      Accounts logs (j.inForce.streamed (.emit time r)) (fun p => j.inForce.filed p (.emit time r))
        (fun p => rolls p j (.emit time r)) j (emit time j r) := by
  have idle : ∀ {p}, ¬ j.inForce.Files p r → j.inForce.filed p (.emit time r) = "" ∧
      rolls p j (.emit time r) = 0 := fun h => ⟨if_neg h, if_neg fun hrolls => h hrolls.1⟩
  rcases emit_cases hj.handlers hr time with
    ⟨p, hlevel, hfiles, heq⟩ | ⟨hlevel, hfiles, heq⟩ | ⟨hlevel, hfiles, heq⟩
  · have hfile := hfiles.2.2
    have hlog := hp p hfile
    obtain ⟨hwell, hopened, hwithin⟩ :=
      writeLine_within hj.files (hj.opened p hfile) (hdirs p hlog) (line time r)
    rw [heq]
    refine ⟨⟨hwell, hj.handlers, fun q hq => ?_⟩, rfl, ?_, fun q hq => ?_, fun x hx => ?_⟩
    · obtain rfl := Option.some.inj (hfile.symm.trans hq)
      exact hopened
    · rw [InForce.streamed, if_pos hlevel]
    · by_cases hqp : q = p
      · subst hqp
        have hlogged := logged_writeLine hj.files (hj.opened q hfile) (hdirs q hlog) (line time r)
        rw [InForce.filed, if_pos hfiles, rolls]
        simpa only [hfiles, true_and] using hlogged
      · have hnot : ¬ j.inForce.Files q r := fun h =>
          hqp (Option.some.inj (h.2.2.symm.trans hfile))
        rw [(idle hnot).1, (idle hnot).2]
        exact .of_unchanged fun x hx => hwithin.outside x (hlogs.not_belongs hlog hq hqp hx)
    · exact .inl (hwithin.outside x (hx p hlog))
  · rw [heq]
    refine ⟨⟨hj.files, hj.handlers, hj.opened⟩, rfl, ?_, fun q _ => ?_, .refl _ _⟩
    · rw [InForce.streamed, if_pos hlevel]
    · rw [(idle (hfiles q)).1, (idle (hfiles q)).2]
      exact .of_unchanged fun _ _ => rfl
  · rw [heq]
    refine ⟨hj, rfl, ?_, fun q _ => ?_, .refl _ _⟩
    · rw [InForce.streamed, if_neg hlevel, String.append_empty]
    · rw [(idle (hfiles q)).1, (idle (hfiles q)).2]
      exact .of_unchanged fun _ _ => rfl

/-! ## Courses of acts -/

theorem course_cons (j : Journal) (a : Act) (acts : List Act) :
    course j (a :: acts) = course (next j a) acts := rfl

theorem Succeeds.head {acts : List Act} (h : Succeeds j (.setup s :: acts)) :
    (setUp j s).1 = .ok () := h [] s acts rfl

theorem Succeeds.tail {a : Act} {acts : List Act} (h : Succeeds j (a :: acts)) :
    Succeeds (next j a) acts := fun front s rest heq => h (a :: front) s rest (by rw [heq]; rfl)

theorem succeeds_nil : Succeeds j [] := by
  rintro (_ | ⟨_, _⟩) s rest heq <;> cases heq

theorem Succeeds.setup {acts : List Act} (hs : (setUp j s).1 = .ok ())
    (h : Succeeds (next j (.setup s)) acts) : Succeeds j (.setup s :: acts) := by
  rintro (_ | ⟨a, front⟩) s' rest heq
  · obtain rfl := Act.setup.inj (List.cons.inj heq).1
    exact hs
  · obtain ⟨rfl, hrest⟩ := List.cons.inj heq
    exact h front s' rest hrest

theorem Succeeds.emit {acts : List Act} (h : Succeeds (next j (.emit time r)) acts) :
    Succeeds j (.emit time r :: acts) := by
  rintro (_ | ⟨a, front⟩) s' rest heq
  · cases heq
  · obtain ⟨rfl, hrest⟩ := List.cons.inj heq
    exact h front s' rest hrest

theorem Accounts.trans {s s' : String} {f f' : Path → String} {n n' : Path → Nat}
    {j j' j'' : Journal} (h : Accounts logs s f n j j') (h' : Accounts logs s' f' n' j' j'') :
    Accounts logs (s ++ s') (fun p => f p ++ f' p) (fun p => n p + n' p) j j'' := by
  refine ⟨?_, fun p hp => (h.filed p hp).trans (h'.filed p hp), h.others.trans h'.others⟩
  rw [h'.stream, h.stream, String.append_assoc]

/-- No backup of a log file is a directory at any time. -/
def Unobstructed (logs : Path → Prop) (j : Journal) (acts : List Act) : Prop :=
  ∀ front, front <+: acts → ∀ p, logs p → ∀ x, IsBackup p x →
    (course j front).files.at? x ≠ some .directory

theorem Unobstructed.head {acts : List Act} (h : Unobstructed logs j acts) :
    ∀ p, logs p → ∀ x, IsBackup p x → j.files.at? x ≠ some .directory := h [] (List.nil_prefix)

theorem Unobstructed.tail {a : Act} {acts : List Act} (h : Unobstructed logs j (a :: acts)) :
    Unobstructed logs (next j a) acts := fun front hfront =>
  h (a :: front) ((List.prefix_cons_inj a).mpr hfront)

theorem unobstructed_nil
    (h : ∀ p, logs p → ∀ x, IsBackup p x → j.files.at? x ≠ some .directory) :
    Unobstructed logs j [] := by
  intro front hfront
  obtain rfl := List.prefix_nil.mp hfront
  exact h

theorem Unobstructed.cons {a : Act} {acts : List Act}
    (h : ∀ p, logs p → ∀ x, IsBackup p x → j.files.at? x ≠ some .directory)
    (hrest : Unobstructed logs (next j a) acts) : Unobstructed logs j (a :: acts) := by
  rintro (_ | ⟨b, front⟩) hfront
  · exact h
  · obtain ⟨rfl, hprefix⟩ := List.cons_prefix_cons.mp hfront
    exact hrest front hprefix

theorem act_accounts {a : Act} {acts : List Act} (hj : Sound j) (hlogs : Distinct logs)
    (hfile : ∀ p, j.inForce.file = some p → logs p)
    (hasked : ∀ s, a = .setup s → ∀ p, s.logPath? = some p → logs p)
    (hr : ∀ time r, a = .emit time r → 0 < r.level) (hsucceeds : Succeeds j (a :: acts))
    (hdirs : Unobstructed logs j (a :: acts)) :
    Sound (next j a) ∧ (next j a).inForce = j.inForce.after a ∧
      Accounts logs (j.inForce.streamed a) (fun p => j.inForce.filed p a) (fun p => rolls p j a) j
        (next j a) := by
  cases a with
  | setup s =>
    exact setup_accounts hj.files hsucceeds.head hlogs (hasked s rfl) hdirs.tail.head
  | emit time r => exact emit_accounts hj hlogs hfile hdirs.head (hr time r rfl) time

theorem course_accounts {acts : List Act} (hlogs : Distinct logs) (hj : Sound j)
    (hfile : ∀ p, j.inForce.file = some p → logs p) (hasked : ∀ p, IsLog acts p → logs p)
    (hr : ∀ time r, .emit time r ∈ acts → 0 < r.level) (hsucceeds : Succeeds j acts)
    (hdirs : Unobstructed logs j acts) :
    Accounts logs (InForce.written InForce.streamed j.inForce acts)
      (fun p => InForce.written (InForce.filed p) j.inForce acts) (fun p => rollovers p j acts) j
      (course j acts) := by
  induction acts generalizing j with
  | nil =>
    exact ⟨String.append_empty.symm, fun p _ => .of_unchanged fun _ _ => rfl, .refl _ _⟩
  | cons a acts ih =>
    have asked : ∀ s, a = .setup s → ∀ p, s.logPath? = some p → logs p := fun s ha p hp =>
      hasked p ⟨s, ha ▸ List.mem_cons_self, hp⟩
    obtain ⟨hsound, hforce, haccounts⟩ := act_accounts hj hlogs hfile asked
      (fun time r ha => hr time r (ha ▸ List.mem_cons_self)) hsucceeds hdirs
    have file' : ∀ p, (next j a).inForce.file = some p → logs p := by
      intro p hp
      rw [hforce] at hp
      cases a with
      | setup s => exact asked s rfl p hp
      | emit time r => exact hfile p hp
    have rest := ih hsound file' (fun p ⟨s, hs, hp⟩ => hasked p ⟨s, List.mem_cons_of_mem a hs, hp⟩)
      (fun time r hmem => hr time r (List.mem_cons_of_mem a hmem)) hsucceeds.tail hdirs.tail
    rw [hforce] at rest
    exact haccounts.trans rest

theorem rollovers_le (p : Path) (j : Journal) (acts : List Act) :
    rollovers p j acts ≤ acts.countP fun a => match a with
      | .emit _ _ => true
      | .setup _ => false := by
  induction acts generalizing j with
  | nil => exact Nat.le_refl 0
  | cons a acts ih =>
    rw [rollovers, List.countP_cons, Nat.add_comm]
    refine Nat.add_le_add (ih _) ?_
    cases a with
    | setup s => exact Nat.zero_le _
    | emit time r =>
      show (if _ ∧ _ then 1 else 0) ≤ 1
      split
      · exact Nat.le_refl 1
      · exact Nat.zero_le 1

theorem log_named {acts : List Act} (hsucceeds : Succeeds j acts) {p : Path} (hp : IsLog acts p) :
    p ≠ [] := by
  obtain ⟨s, hmem, hlog⟩ := hp
  obtain ⟨front, rest, rfl⟩ := List.append_of_mem hmem
  have hopen := (isSetUp (hsucceeds front s rest rfl)).opens p hlog
  obtain ⟨-, hnormal, t₁, -, happend⟩ := of_openLog hopen
  rintro rfl
  exact (of_openAppend hnormal happend).2 (at?_above rfl)

/-- Each setup that succeeds leaves one stream and, if a log file is asked for, that file in force.
A record that reaches the level in force is written once to the stream, and once to the log file in
force if it is of level 20 at least. The lines stand in the order of the records and behind what was
there before, and nothing else is written. A log file is read from its backups and itself, and its
backups must not run out, have names that are too long, or stand where directories are. -/
theorem journal_accounts {j : Journal} {acts : List Act}
    (hfirst : ∃ s rest, acts = .setup s :: rest)
    (hsucceeds : Succeeds j acts) (hlevels : ∀ time r, .emit time r ∈ acts → 0 < r.level)
    (hwell : WellFormed j.files) (hapart : ∀ p q, IsLog acts p → IsLog acts q → ¬ IsBackup p q)
    (hfree : ∀ p, IsLog acts p → ∀ x, IsBackup p x → j.files.at? x = none)
    (hdirs : Unobstructed (IsLog acts) j acts) :
    (∀ front s rest, acts = front ++ .setup s :: rest →
      (course j (front ++ [.setup s])).handlers = some ⟨s.logPath?⟩ ∧
        s.logPath?.isSome = s.logFileInForce.truthy) ∧
    (course j acts).stream = j.stream ++ InForce.written InForce.streamed j.inForce acts ∧
    (∀ p, IsLog acts p → rollovers p j acts ≤ backupCount → (0 < rollovers p j acts → Short p) →
      history (course j acts).files p =
        bytesAt j.files p ++ (InForce.written (InForce.filed p) j.inForce acts).toUTF8) ∧
    ∀ x, (∀ p, IsLog acts p → ¬ Belongs p x) → (course j acts).files.at? x = j.files.at? x ∨
      j.files.at? x = none ∧ (course j acts).files.at? x = some .directory := by
  have hlogs : Distinct (IsLog acts) := ⟨fun p hp => log_named hsucceeds hp, hapart⟩
  have accounts : Accounts (IsLog acts) (InForce.written InForce.streamed j.inForce acts)
      (fun p => InForce.written (InForce.filed p) j.inForce acts) (fun p => rollovers p j acts) j
      (course j acts) := by
    obtain ⟨s, rest, heq⟩ := hfirst
    have asked : ∀ p, s.logPath? = some p → IsLog acts p := fun p hp =>
      ⟨s, heq ▸ List.mem_cons_self, hp⟩
    have later : ∀ p, IsLog rest p → IsLog acts p := fun p ⟨s', hs', hp⟩ =>
      ⟨s', heq ▸ List.mem_cons_of_mem _ hs', hp⟩
    generalize IsLog acts = logs at hlogs hdirs asked later ⊢
    subst heq
    obtain ⟨hsound, hforce, hsetup⟩ :=
      setup_accounts hwell hsucceeds.head hlogs asked hdirs.tail.head
    have hrest := course_accounts hlogs hsound
      (fun p hp => asked p (by rw [hforce] at hp; exact hp)) later
      (fun time r hmem => hlevels time r (List.mem_cons_of_mem _ hmem)) hsucceeds.tail hdirs.tail
    rw [hforce] at hrest
    exact hsetup.trans hrest
  refine ⟨fun front s rest heq => ?_, accounts.stream, fun p hp hcount hshort => ?_,
    accounts.others⟩
  · have h := isSetUp (hsucceeds front s rest heq)
    refine ⟨?_, h.logged⟩
    rw [course, List.foldl_append]
    exact h.handlers
  · have empty : ∀ n, 1 ≤ n → n ≤ 3 → bytesAt j.files (backup p n) = .empty := fun n h1 h3 =>
      bytesAt_none (hfree p hp _ (isBackup_backup p h1 h3))
    obtain ⟨hhistory, -⟩ := accounts.filed p hp 0
      (fun n h1 h3 => hfree p hp _ (isBackup_backup p h1 h3)) (by rwa [Nat.zero_add]) hshort
    rw [hhistory, history, empty 3 (by decide) (by decide), empty 2 (by decide) (by decide),
      empty 1 (by decide) (by decide), ByteArray.empty_append, ByteArray.empty_append,
      ByteArray.empty_append]

def seenLine : String := "now | a | INFO | seen\n"

def loggingTo (p : Path) (stream : String) (files : FileTree) : Journal :=
  { level := .int 20, handlers := some ⟨some p⟩, stream, files }

/-- A log file is left by a setup for debugging. -/
def leaving : List Act := [
  .setup { logFile := .str "a.log" }, .emit "now" ⟨"a", 20, "seen"⟩,
  .setup { debug := .bool true }, .emit "now" ⟨"a", 10, "seen"⟩]

theorem opens_log : setUp {} { logFile := .str "a.log" } =
    (.ok (), loggingTo ["a.log"] "" [(["a.log"], .file (.text ""))]) :=
  setUp_opens "a.log" "" _ rfl rfl (by decide +kernel) (by decide +kernel) (by cbv)
    (by decide +kernel) rfl rfl

theorem journal_accounts_leaving :
    (course {} leaving).stream = "now | a | INFO | seen\nnow | a | DEBUG | seen\n" ∧
      history (course {} leaving).files ["a.log"] = seenLine.toUTF8 := by
  have log : Setup.logPath? { logFile := .str "a.log" } = some ["a.log"] :=
    logPath_of_setUp opens_log rfl
  have isLog : ∀ {p}, IsLog leaving p → p = ["a.log"] := by
    rintro p ⟨s, hs, hp⟩
    simp only [leaving, List.mem_cons, List.not_mem_nil, Act.setup.injEq, reduceCtorEq, or_false,
      false_or] at hs
    rcases hs with rfl | rfl
    · exact Option.some.inj (hp.symm.trans log)
    · cases hp
  -- the journal after each of the first two acts
  have first : next {} (.setup { logFile := .str "a.log" }) =
      loggingTo ["a.log"] "" [(["a.log"], .file (.text ""))] := by
    rw [next, opens_log]
  have second : next (loggingTo ["a.log"] "" [(["a.log"], .file (.text ""))])
      (.emit "now" ⟨"a", 20, "seen"⟩) =
        loggingTo ["a.log"] seenLine [(["a.log"], .file (.text seenLine))] := rfl
  have hfirst : ∃ s rest, leaving = .setup s :: rest := ⟨_, _, rfl⟩
  have hsucceeds : Succeeds {} leaving := by
    refine .setup (congrArg Prod.fst opens_log) (.emit (.setup ?_ (.emit succeeds_nil)))
    rw [first, second]
    rfl
  have hlevels : ∀ time r, .emit time r ∈ leaving → 0 < r.level := by
    intro time r hmem
    simp only [leaving, List.mem_cons, List.not_mem_nil, reduceCtorEq, Act.emit.injEq, or_false,
      false_or] at hmem
    rcases hmem with ⟨-, rfl⟩ | ⟨-, rfl⟩ <;> decide
  have hapart : ∀ p q, IsLog leaving p → IsLog leaving q → ¬ IsBackup p q := by
    intro p q hp hq
    obtain rfl := isLog hp
    obtain rfl := isLog hq
    exact not_isBackup [] "a.log"
  have hfree : ∀ p, IsLog leaving p → ∀ x, IsBackup p x → ({} : Journal).files.at? x = none := by
    intro p hp x hx
    obtain rfl := isLog hp
    rcases backup_cases hx with rfl | rfl | rfl <;> rfl
  have clear : ∀ {j : Journal} {c : Content}, j.files = [(["a.log"], .file c)] →
      ∀ p, IsLog leaving p → ∀ x, IsBackup p x → j.files.at? x ≠ some .directory := by
    intro j c hj p hp x hx
    obtain rfl := isLog hp
    rw [hj]
    rcases backup_cases hx with rfl | rfl | rfl <;> exact nofun
  have hdirs : Unobstructed (IsLog leaving) {} leaving := by
    refine .cons (fun p hp x hx => by rw [hfree p hp x hx]; exact nofun) ?_
    rw [first]
    refine .cons (clear rfl) ?_
    rw [second]
    exact .cons (clear rfl) (.cons (clear rfl) (unobstructed_nil (clear rfl)))
  obtain ⟨-, hstream, hfiles, -⟩ :=
    journal_accounts hfirst hsucceeds hlevels wellFormed_nil hapart hfree hdirs
  have filed : InForce.written (InForce.filed ["a.log"]) ({} : Journal).inForce leaving =
      "" ++ (seenLine ++ ("" ++ ("" ++ ""))) := by
    rw [leaving, InForce.written, InForce.written, InForce.written, InForce.written,
      InForce.written]
    rw [show InForce.filed ["a.log"] _ (.emit "now" ⟨"a", 20, "seen"⟩) = seenLine from
      if_pos ⟨by decide, by decide, log⟩]
    rfl
  refine ⟨hstream.trans (by decide +kernel), ?_⟩
  rw [hfiles ["a.log"] ⟨_, List.mem_cons_self, log⟩
    (Nat.le_trans (rollovers_le _ _ _) (by decide)) fun _ => (by decide : _ ≤ _), filed]
  rfl

/-! ## A directory in the way -/

def filling : Record := ⟨"a", 20, String.ofList (List.replicate byteLimit 'x')⟩

/-- A directory is made for a log file, and then another log file with a backup of the name of that
directory is rotated. -/
def obstructing : List Act := [
  .setup { logFile := .str "x.log.1/y.log" }, .emit "now" ⟨"a", 20, "seen"⟩,
  .setup { logFile := .str "x.log" }, .emit "now" filling]

section Obstructing

def aside : FileTree := [(["x.log.1"], .directory), (["x.log.1", "y.log"], .file (.text seenLine)),
  (["x.log"], .file (.text ""))]

def astray : FileTree := [(["x.log.2"], .directory), (["x.log.2", "y.log"], .file (.text seenLine)),
  (["x.log.1"], .file (.text "")), (["x.log"], .file (.text ""))]

theorem opens_inner : setUp {} { logFile := .str "x.log.1/y.log" } = (.ok (),
    loggingTo ["x.log.1", "y.log"] ""
      [(["x.log.1"], .directory), (["x.log.1", "y.log"], .file (.text ""))]) :=
  setUp_opens "x.log.1/y.log" "x.log.1" [(["x.log.1"], .directory)] rfl rfl (by decide +kernel)
    (by decide +kernel) (by cbv) (by decide +kernel) (by cbv) rfl

theorem emits_inner : next (loggingTo ["x.log.1", "y.log"] ""
      [(["x.log.1"], .directory), (["x.log.1", "y.log"], .file (.text ""))])
      (.emit "now" ⟨"a", 20, "seen"⟩) = loggingTo ["x.log.1", "y.log"] seenLine
    [(["x.log.1"], .directory), (["x.log.1", "y.log"], .file (.text seenLine))] := rfl

theorem opens_outer : setUp (loggingTo ["x.log.1", "y.log"] seenLine
      [(["x.log.1"], .directory), (["x.log.1", "y.log"], .file (.text seenLine))])
      { logFile := .str "x.log" } = (.ok (), loggingTo ["x.log"] seenLine aside) :=
  setUp_opens "x.log" "" _ rfl rfl (by decide +kernel) (by decide +kernel) (by cbv)
    (by decide +kernel) rfl rfl

theorem course_obstructing :
    course {} obstructing = emit "now" (loggingTo ["x.log"] seenLine aside) filling := by
  rw [obstructing, course_cons, next, opens_inner, course_cons, emits_inner, course_cons, next,
    opens_outer]
  rfl

theorem succeeds_obstructing : Succeeds {} obstructing := by
  refine .setup (congrArg Prod.fst opens_inner) (.emit (.setup ?_ (.emit succeeds_nil)))
  rw [next, opens_inner, emits_inner, opens_outer]

theorem isLog_obstructing {p : Path} :
    IsLog obstructing p ↔ p = ["x.log.1", "y.log"] ∨ p = ["x.log"] := by
  have inner := logPath_of_setUp opens_inner rfl
  have outer := logPath_of_setUp opens_outer rfl
  constructor
  · rintro ⟨s, hs, hp⟩
    simp only [obstructing, List.mem_cons, List.not_mem_nil, Act.setup.injEq, reduceCtorEq,
      or_false, false_or] at hs
    rcases hs with rfl | rfl
    · exact .inl (Option.some.inj (hp.symm.trans inner))
    · exact .inr (Option.some.inj (hp.symm.trans outer))
  · rintro (rfl | rfl)
    · exact ⟨_, List.mem_cons_self, inner⟩
    · exact ⟨_, by simp [obstructing], outer⟩

theorem isFull_filling : isFull aside ["x.log"] (line "now" filling) = true := by
  have hmessage : filling.message.length = byteLimit := by
    rw [filling, String.length_ofList, List.length_replicate]
  have hline : filling.message.length ≤ (line "now" filling).length := by
    unfold line
    simp only [String.length_append]
    omega
  have hcontent : aside.content? ["x.log"] = some (.text "") := rfl
  rw [isFull, hcontent]
  refine decide_eq_true ?_
  omega

theorem files_astray {r : Record} (hlevel : 20 ≤ r.level)
    (hfull : isFull aside ["x.log"] (line "now" r) = true) (x : Path) (hx : ["x.log"] ≠ x) :
    (emit "now" (loggingTo ["x.log"] seenLine aside) r).files.at? x = astray.at? x := by
  have hrotate : (rotate ["x.log"]).run aside = (.ok (), astray) := rfl
  have hfiles : (loggingTo ["x.log"] seenLine aside).inForce.Files ["x.log"] r :=
    ⟨hlevel, hlevel, rfl⟩
  rcases emit_cases (j := loggingTo ["x.log"] seenLine aside) (Option.some_ne_none _)
    (r := r) (by omega) "now" with ⟨p, -, hp, heq⟩ | ⟨-, hnone, -⟩ | ⟨-, hnone, -⟩
  · obtain rfl := Option.some.inj hp.2.2
    rw [heq, Change.apply, run_writeLine]
    simp only [loggingTo, hfull, hrotate, run_append, if_true]
    exact (at?_put rfl x).trans (if_neg hx)
  · exact absurd hfiles (hnone ["x.log"])
  · exact absurd hfiles (hnone ["x.log"])

theorem files_obstructing (x : Path) (hx : ["x.log"] ≠ x) :
    (course {} obstructing).files.at? x = astray.at? x := by
  rw [course_obstructing]
  exact files_astray (Int.le_refl 20) isFull_filling x hx

/-- What a log file held is not found any more where its directory has the name of a backup of
another one that is rotated. -/
theorem obstructing_loses : (∃ s rest, obstructing = .setup s :: rest) ∧ Succeeds {} obstructing ∧
    (∀ time r, .emit time r ∈ obstructing → 0 < r.level) ∧ WellFormed ({} : Journal).files ∧
    (∀ p q, IsLog obstructing p → IsLog obstructing q → ¬ IsBackup p q) ∧
    (∀ p, IsLog obstructing p → ∀ x, IsBackup p x → ({} : Journal).files.at? x = none) ∧
    ∃ p, IsLog obstructing p ∧ rollovers p {} obstructing ≤ backupCount ∧ Short p ∧
      history (course {} obstructing).files p ≠ bytesAt ({} : Journal).files p ++
        (InForce.written (InForce.filed p) ({} : Journal).inForce obstructing).toUTF8 := by
  refine ⟨⟨_, _, rfl⟩, succeeds_obstructing, ?_, wellFormed_nil, ?_, ?_, ["x.log.1", "y.log"],
    isLog_obstructing.mpr (.inl rfl), Nat.le_trans (rollovers_le _ _ _) (by decide),
    (by decide : _ ≤ _), fun heq => ?_⟩
  · intro time r hmem
    simp only [obstructing, List.mem_cons, List.not_mem_nil, reduceCtorEq, Act.emit.injEq,
      or_false, false_or] at hmem
    rcases hmem with ⟨-, rfl⟩ | ⟨-, rfl⟩ <;> decide
  · intro p q hp hq hbackup
    rcases isLog_obstructing.mp hp with rfl | rfl <;>
      rcases isLog_obstructing.mp hq with rfl | rfl <;>
        rcases backup_cases hbackup with h | h | h <;> revert h <;> decide +kernel
  · intro p hp x hx
    rcases isLog_obstructing.mp hp with rfl | rfl <;>
      rcases backup_cases hx with rfl | rfl | rfl <;> rfl
  · have empty : history (course {} obstructing).files ["x.log.1", "y.log"] = .empty := by
      have gone : ∀ x, ["x.log"] ≠ x → astray.at? x = none →
          bytesAt (course {} obstructing).files x = .empty := fun x hx hnone =>
        bytesAt_none ((files_obstructing x hx).trans hnone)
      rw [history, gone _ (by decide +kernel) rfl, gone _ (by decide +kernel) rfl,
        gone _ (by decide +kernel) rfl, gone _ (by decide) rfl]
      rfl
    have filed : InForce.filed ["x.log.1", "y.log"]
        (({} : Journal).inForce.after (.setup { logFile := .str "x.log.1/y.log" }))
        (.emit "now" ⟨"a", 20, "seen"⟩) = seenLine :=
      if_pos ⟨by decide, by decide, logPath_of_setUp opens_inner rfl⟩
    have hseen : 0 < seenLine.utf8ByteSize := by decide
    have hsize := congrArg ByteArray.size heq
    rw [empty, obstructing, InForce.written, InForce.written, filed] at hsize
    simp only [ByteArray.size_append, String.toUTF8_eq_toByteArray, String.size_toByteArray,
      String.utf8ByteSize_append, ByteArray.size_empty] at hsize
    omega

end Obstructing

end Toolwright.Journal
