import Toolwright.Naming

/-!
# Names of tools and classes

A tool name that spells words becomes a class name with a capital for each word, and the class name
gives the words back, joined by single underscores. A class name made of capitals with small letters
and digits behind them comes back from the tool name that is made of it.
-/

namespace Toolwright.Naming

set_option autoImplicit false

def isSeparator (c : Char) : Bool := c == '-' || c == '_'

/-- A small letter or a digit of the basic alphabet. -/
def isTail (c : Char) : Bool := c.isLower || c.isDigit

/-- A small letter with small letters and digits behind it. -/
inductive IsWord : List Char → Prop
  | mk {c : Char} {cs : List Char} (hc : c.isLower = true) (hcs : ∀ d ∈ cs, isTail d = true) :
    IsWord (c :: cs)

/-- A capital letter with small letters and digits behind it. -/
inductive IsPiece : List Char → Prop
  | mk {c : Char} {cs : List Char} (hc : c.isUpper = true) (hcs : ∀ d ∈ cs, isTail d = true) :
    IsPiece (c :: cs)

/-- A text that spells words: between any two of them there are separators, and there may be others
before the first one and behind the last one. -/
inductive Spells : List (List Char) → List Char → Prop
  | last {word : List Char} (hw : IsWord word) : Spells [word] word
  | next {word : List Char} {c : Char} {words : List (List Char)} {cs : List Char}
    (hw : IsWord word) (hc : isSeparator c = true) (h : Spells words cs) :
    Spells (word :: words) (word ++ c :: cs)
  | before {c : Char} {words : List (List Char)} {cs : List Char} (hc : isSeparator c = true)
    (h : Spells words cs) : Spells words (c :: cs)
  | behind {c : Char} {words : List (List Char)} {cs : List Char} (hc : isSeparator c = true)
    (h : Spells words cs) : Spells words (cs ++ [c])

/-! ## Characters -/

theorem forall_basic {p : Char → Prop} (h : ∀ n < 128, p (Char.ofNat n)) {c : Char}
    (hc : c.toNat < 128) : p c := by
  have hp := h c.toNat hc
  rwa [Char.ofNat_toNat] at hp

theorem lt_of_isLower {c : Char} (hc : c.isLower = true) : c.toNat < 128 := by
  have hc : c.val ≤ 'z'.val := of_decide_eq_true (Bool.and_eq_true_iff.mp hc).2
  rw [UInt32.le_iff_toNat_le] at hc
  have : 'z'.val.toNat = 122 := rfl
  have : c.toNat = c.val.toNat := rfl
  omega

theorem lt_of_isUpper {c : Char} (hc : c.isUpper = true) : c.toNat < 128 := by
  have hc : 'A'.val ≤ c.val ∧ c.val ≤ 'Z'.val := of_decide_eq_true hc
  simp only [UInt32.le_iff_toNat_le] at hc
  have : 'Z'.val.toNat = 90 := rfl
  have : c.toNat = c.val.toNat := rfl
  omega

theorem lt_of_isTail {c : Char} (hc : isTail c = true) : c.toNat < 128 := by
  rcases Bool.or_eq_true_iff.mp hc with hc | hc
  · exact lt_of_isLower hc
  · simp only [Char.isDigit, Bool.and_eq_true, decide_eq_true_eq, UInt32.le_iff_toNat_le] at hc
    have : '9'.val.toNat = 57 := rfl
    have : c.toNat = c.val.toNat := rfl
    omega

/-- The upper form of a small letter is a capital one, of which it is the lower form. -/
theorem upperOne_small {c : Char} (hc : c.isLower = true) : Text.upperOne c = [c.toUpper] ∧
    c.toUpper.isUpper = true ∧ Text.lowerOne c.toUpper = [c] :=
  forall_basic (p := fun c => c.isLower = true → Text.upperOne c = [c.toUpper] ∧
    c.toUpper.isUpper = true ∧ Text.lowerOne c.toUpper = [c]) (by decide) (lt_of_isLower hc) hc

theorem lowerOne_capital {c : Char} (hc : c.isUpper = true) : Text.lowerOne c = [c.toLower] ∧
    c.toLower.isLower = true ∧ Text.upperOne c.toLower = [c] ∧ isCapital c = true :=
  forall_basic (p := fun c => c.isUpper = true → Text.lowerOne c = [c.toLower] ∧
    c.toLower.isLower = true ∧ Text.upperOne c.toLower = [c] ∧ isCapital c = true)
    (by decide) (lt_of_isUpper hc) hc

theorem lowerOne_tail {c : Char} (hc : isTail c = true) : Text.lowerOne c = [c] ∧
    isCapital c = false ∧ isSeparator c = false :=
  forall_basic (p := fun c => isTail c = true → Text.lowerOne c = [c] ∧ isCapital c = false ∧
    isSeparator c = false) (by decide) (lt_of_isTail hc) hc

theorem lowerFrom_basic {cs : List Char} (h : ∀ c ∈ cs, c.toNat < 128) (before : List Char) :
    Text.lowerFrom before cs = cs.flatMap Text.lowerOne := by
  induction cs generalizing before with
  | nil => rfl
  | cons c cs ih =>
    have hc : c.toNat < 128 := h c List.mem_cons_self
    have hsigma : (c.toNat == 0x3A3) = false := by
      rw [beq_eq_false_iff_ne]
      omega
    rw [List.flatMap_cons, Text.lowerFrom, ih fun d hd => h d (List.mem_cons_of_mem c hd)]
    rw [Text.lowerAt, hsigma]
    rfl

/-! ## Words and pieces -/

theorem flatMap_lowerOne_tail {cs : List Char} (h : ∀ c ∈ cs, isTail c = true) :
    cs.flatMap Text.lowerOne = cs := by
  induction cs with
  | nil => rfl
  | cons c cs ih =>
    rw [List.flatMap_cons, (lowerOne_tail (h c List.mem_cons_self)).1,
      ih fun d hd => h d (List.mem_cons_of_mem c hd)]
    rfl

theorem IsWord.not_separator {word : List Char} (h : IsWord word) :
    ∀ c ∈ word, isSeparator c = false := by
  obtain ⟨hc, hcs⟩ := h
  intro d hd
  rcases List.mem_cons.mp hd with rfl | hd
  · exact (lowerOne_tail (by rw [isTail, hc, Bool.true_or])).2.2
  · exact (lowerOne_tail (hcs d hd)).2.2

theorem IsWord.headUpper {word : List Char} (h : IsWord word) :
    IsPiece (Naming.headUpper word) ∧ (Naming.headUpper word).flatMap Text.lowerOne = word := by
  obtain ⟨hc, hcs⟩ := h
  obtain ⟨hup, hcapital, hlow⟩ := upperOne_small hc
  rw [Naming.headUpper, hup, List.singleton_append]
  refine ⟨.mk hcapital hcs, ?_⟩
  rw [List.flatMap_cons, hlow, flatMap_lowerOne_tail hcs]
  rfl

theorem IsPiece.lower {piece : List Char} (h : IsPiece piece) :
    IsWord (piece.flatMap Text.lowerOne) ∧
      Naming.headUpper (piece.flatMap Text.lowerOne) = piece := by
  obtain ⟨hc, hcs⟩ := h
  obtain ⟨hlow, hsmall, hup, -⟩ := lowerOne_capital hc
  rw [List.flatMap_cons, hlow, flatMap_lowerOne_tail hcs]
  refine ⟨.mk hsmall hcs, ?_⟩
  show Text.upperOne _ ++ _ = _
  rw [hup]
  rfl

theorem IsPiece.basic {piece : List Char} (h : IsPiece piece) : ∀ c ∈ piece, c.toNat < 128 := by
  obtain ⟨hc, hcs⟩ := h
  intro d hd
  rcases List.mem_cons.mp hd with rfl | hd
  · exact lt_of_isUpper hc
  · exact lt_of_isTail (hcs d hd)

/-! ## From tool names to class names -/

theorem Spells.nameWords {words : List (List Char)} {cs : List Char} (h : Spells words cs) :
    nameWords cs = words := by
  show Text.runsFrom isSeparator [] cs = words
  induction h with
  | @last word hw =>
    rw [← List.append_nil word, Text.runsFrom_append hw.not_separator, Text.runsFrom]
    obtain ⟨hc, hcs⟩ := hw
    simp
  | @next word c words cs hw hc h ih =>
    rw [Text.runsFrom_append hw.not_separator, Text.runsFrom, if_pos hc, ih]
    obtain ⟨-, -⟩ := hw
    simp
  | before hc h ih =>
    rw [Text.runsFrom, if_pos hc]
    exact ih
  | behind hc h ih =>
    rw [Text.runsFrom_behind hc]
    exact ih

theorem Spells.isWord {words : List (List Char)} {cs : List Char} (h : Spells words cs) :
    words ≠ [] ∧ ∀ word ∈ words, IsWord word := by
  induction h with
  | last hw => exact ⟨List.cons_ne_nil _ _, by simpa using hw⟩
  | next hw hc h ih =>
    refine ⟨List.cons_ne_nil _ _, ?_⟩
    intro word hm
    rcases List.mem_cons.mp hm with rfl | hm
    · exact hw
    · exact ih.2 word hm
  | before hc h ih => exact ih
  | behind hc h ih => exact ih

theorem Spells.className {words : List (List Char)} {text : String} (h : Spells words text.toList) :
    className text "" = String.ofList (words.flatMap headUpper) := by
  obtain ⟨hne, hwords⟩ := h.isWord
  obtain ⟨word, rest, rfl⟩ := List.exists_cons_of_ne_nil hne
  have hpiece := (hwords word List.mem_cons_self).headUpper.1
  rw [Naming.className, classChars, h.nameWords, List.flatMap_cons]
  generalize Naming.headUpper word = piece at hpiece
  obtain ⟨hc, hcs⟩ := hpiece
  simp

/-! ## From class names to tool names -/

theorem flatMap_capitals_tail {cs : List Char} (h : ∀ c ∈ cs, isTail c = true) :
    (cs.flatMap fun c => if isCapital c then ['_', c] else [c]) = cs := by
  induction cs with
  | nil => rfl
  | cons c cs ih =>
    rw [List.flatMap_cons, (lowerOne_tail (h c List.mem_cons_self)).2.1,
      ih fun d hd => h d (List.mem_cons_of_mem c hd)]
    rfl

theorem flatMap_capitals {pieces : List (List Char)} (h : ∀ piece ∈ pieces, IsPiece piece) :
    (pieces.flatten.flatMap fun c => if isCapital c then ['_', c] else [c]) =
      pieces.flatMap ('_' :: ·) := by
  induction pieces with
  | nil => rfl
  | cons piece pieces ih =>
    obtain ⟨hc, hcs⟩ := h piece List.mem_cons_self
    rw [List.flatten_cons, List.flatMap_append, List.flatMap_cons, flatMap_capitals_tail hcs,
      (lowerOne_capital hc).2.2.2, List.flatMap_cons,
      ih fun p hp => h p (List.mem_cons_of_mem _ hp)]
    rfl

theorem intercalate_cons (word : List Char) (words : List (List Char)) :
    ['_'].intercalate (word :: words) = word ++ words.flatMap ('_' :: ·) := by
  induction words generalizing word with
  | nil => simp [List.intercalate]
  | cons next words ih =>
    rw [List.intercalate_cons_cons, ih, List.flatMap_cons]
    simp

theorem toolName_flatten {pieces : List (List Char)} (h : ∀ piece ∈ pieces, IsPiece piece) :
    toolName (String.ofList pieces.flatten) =
      String.ofList (['_'].intercalate (pieces.map (·.flatMap Text.lowerOne))) := by
  cases pieces with
  | nil => rfl
  | cons piece pieces =>
    have hrest : ∀ p ∈ pieces, IsPiece p := fun p hp => h p (List.mem_cons_of_mem _ hp)
    have hseparated : separateCapitals (piece :: pieces).flatten =
        piece ++ pieces.flatMap ('_' :: ·) := by
      obtain ⟨hc, hcs⟩ := h piece List.mem_cons_self
      rw [List.flatten_cons, List.cons_append, separateCapitals, List.flatMap_append,
        flatMap_capitals_tail hcs, flatMap_capitals hrest]
      rfl
    have hbasic : ∀ c ∈ piece ++ pieces.flatMap ('_' :: ·), c.toNat < 128 := by
      intro c hc
      rcases List.mem_append.mp hc with hc | hc
      · exact (h piece List.mem_cons_self).basic c hc
      · obtain ⟨p, hp, hc⟩ := List.mem_flatMap.mp hc
        rcases List.mem_cons.mp hc with rfl | hc
        · decide
        · exact (hrest p hp).basic c hc
    rw [toolName, String.toList_ofList, hseparated, Text.lower, lowerFrom_basic hbasic,
      List.map_cons, intercalate_cons, List.flatMap_append, List.flatMap_assoc, List.flatMap_map]
    rfl

/-! ## Both ways -/

theorem spells_intercalate {word : List Char} {words : List (List Char)}
    (h : ∀ w ∈ word :: words, IsWord w) :
    Spells (word :: words) (['_'].intercalate (word :: words)) := by
  induction words generalizing word with
  | nil =>
    rw [intercalate_cons]
    simpa using Spells.last (h word List.mem_cons_self)
  | cons next words ih =>
    rw [List.intercalate_cons_cons, List.append_assoc]
    exact .next (h word List.mem_cons_self) rfl (ih fun w hw => h w (List.mem_cons_of_mem _ hw))

/-- A tool name that spells words becomes a class name that gives them back, joined by underscores,
and a class name that consists of pieces becomes a tool name that gives it back. -/
theorem names_inverse {words pieces : List (List Char)} {text : String}
    (hwords : Spells words text.toList) (hne : pieces ≠ [])
    (hpieces : ∀ piece ∈ pieces, IsPiece piece) :
    toolName (className text "") = String.ofList (['_'].intercalate words) ∧
      className (toolName (String.ofList pieces.flatten)) "" = String.ofList pieces.flatten := by
  constructor
  · have hheads : ∀ piece ∈ words.map headUpper, IsPiece piece := by
      intro piece hp
      obtain ⟨word, hw, rfl⟩ := List.mem_map.mp hp
      exact (hwords.isWord.2 word hw).headUpper.1
    have hlower : (words.map headUpper).map (·.flatMap Text.lowerOne) = words := by
      rw [List.map_map]
      refine (List.map_congr_left ?_).trans (List.map_id words)
      intro word hw
      exact (hwords.isWord.2 word hw).headUpper.2
    rw [hwords.className, List.flatMap_def, toolName_flatten hheads, hlower]
  · obtain ⟨piece, rest, rfl⟩ := List.exists_cons_of_ne_nil hne
    have hspelled : Spells ((piece :: rest).map (·.flatMap Text.lowerOne))
        (toolName (String.ofList (piece :: rest).flatten)).toList := by
      rw [toolName_flatten hpieces, String.toList_ofList, List.map_cons]
      refine spells_intercalate ?_
      intro word hw
      rw [← List.map_cons (f := fun p => List.flatMap Text.lowerOne p)] at hw
      obtain ⟨p, hp, rfl⟩ := List.mem_map.mp hw
      exact (hpieces p hp).lower.1
    have hheads : (piece :: rest).map (fun p => headUpper (p.flatMap Text.lowerOne)) =
        piece :: rest := by
      refine (List.map_congr_left ?_).trans (List.map_id _)
      intro p hp
      exact (hpieces p hp).lower.2
    rw [hspelled.className, List.flatMap_map, List.flatMap_def, hheads]

theorem names_inverse_mixed :
    Spells ["get".toList, "x2".toList, "url".toList] "-get_-x2--url_".toList ∧
      ["A".toList, "Http2".toList, "B".toList] ≠ [] ∧
      (∀ piece ∈ ["A".toList, "Http2".toList, "B".toList], IsPiece piece) ∧
      toolName (className "-get_-x2--url_" "") = "get_x2_url" ∧
      className (toolName "AHttp2B") "" = "AHttp2B" := by
  have hspells : Spells ["get".toList, "x2".toList, "url".toList] "-get_-x2--url_".toList := by
    have hget : IsWord "get".toList := .mk rfl (List.all_eq_true.mp rfl)
    have hx2 : IsWord "x2".toList := .mk rfl (List.all_eq_true.mp rfl)
    have hurl : IsWord "url".toList := .mk rfl (List.all_eq_true.mp rfl)
    exact .before rfl (.next hget rfl (.before rfl (.next hx2 rfl (.before rfl
      (.behind rfl (.last hurl))))))
  have hpieces : ∀ piece ∈ ["A".toList, "Http2".toList, "B".toList], IsPiece piece := by
    intro piece hp
    simp only [List.mem_cons, List.not_mem_nil, or_false] at hp
    rcases hp with rfl | rfl | rfl
    · exact .mk rfl (List.all_eq_true.mp rfl)
    · exact .mk rfl (List.all_eq_true.mp rfl)
    · exact .mk rfl (List.all_eq_true.mp rfl)
  obtain ⟨htool, hclass⟩ := names_inverse hspells (List.cons_ne_nil _ _) hpieces
  exact ⟨hspells, List.cons_ne_nil _ _, hpieces, htool, hclass⟩

end Toolwright.Naming
