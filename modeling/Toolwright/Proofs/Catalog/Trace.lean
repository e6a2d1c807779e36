import Mathlib
import Toolwright.Catalog.FileProcessor
import Toolwright.Proofs.Declaration.Rows

/-!
# The trace of a file processor

A run over a file folds the transforms of its operations over the text. Its report has one entry for
each operation, which describes the text as it was or became there, and the text at the end. What an
entry and an analysis tell is stated field by field.
-/

namespace Toolwright.Catalog.FileProcessor

set_option autoImplicit false

open Text

variable (content : List Char)

/-- The name of an operation in lower case. -/
def lowered (operation : String) : String := String.ofList (lower operation.toList)

def isAnalysis (operation : String) : Bool := lowered operation == "analyze"

/-- The text after one operation that is no analysis. -/
def changed (cs : List Char) (operation : String) : List Char :=
  transformed (Transform.ofName? (lowered operation)) cs

/-- The text after operations, of which the analyses are left out. -/
def folded (operations : List String) : List Char :=
  (operations.filter fun operation => !isAnalysis operation).foldl changed content

def noteBehind (before : List String) (operation : String) : Note :=
  if isAnalysis operation then .analysis (analyze (folded content before))
  else
    .change (folded content before != folded content (before ++ [operation]))
      (preview (folded content (before ++ [operation])))

def Note.applied : Note → Bool
  | .analysis _ => false
  | .change applied _ => applied

def actionOf (operation : String) : Value × Action :=
  (.str operation, .ofName (lowered operation))

/-- The value of a dictionary under a text. -/
def field? (v : Value) (name : String) : Option Value :=
  (v.rows?.getD []).findSome? fun row =>
    match row.1 with
    | .str key => if key = name then some row.2 else none
    | _ => none

theorem field?_ofRows (rows : List (String × Value)) (name : String) :
    field? (.ofRows rows) name = Table.find? rows name := by
  induction rows with
  | nil => rfl
  | cons row rows ih =>
    have step : field? (.ofRows (row :: rows)) name =
        (if row.1 = name then some row.2 else none).or (field? (.ofRows rows) name) := by
      unfold field? Value.ofRows
      simp only [Value.rows?, Option.getD_some, List.map_cons, List.findSome?_cons]
      split <;> simp_all
    rw [step, ih, Table.find?_cons]
    split <;> rfl

def IsLongest (word : List Char) (ws : List (List Char)) : Prop :=
  (ws = [] ∧ word = []) ∨ ∃ before after, ws = before ++ word :: after ∧
    (∀ w ∈ before, w.length < word.length) ∧ ∀ w ∈ after, w.length ≤ word.length

structure Analyzes (text : List Char) (result : Value) : Prop where
  characterCount : field? result "character_count" = some (.int text.length)
  wordCount : field? result "word_count" = some (.int (words text).length)
  lineCount : field? result "line_count" = some (.int (lines text).length)
  averageLength : field? result "average_line_length" = some (if lines text = [] then .int 0
    else .float ((Binary64.ofRatio false text.length (lines text).length).roundTo 2))
  longestWord : ∃ word, field? result "longest_word" = some (.str (String.ofList word)) ∧
    IsLongest word (words text)
  uniqueWords : field? result "unique_words" =
    some (.int ((words text).map lower).toFinset.card)

/-- An entry for an operation: the analysis of the text before it, or whether it changed the text and
how the text starts then. -/
structure Describes (before after : List Char) (name : String) (entry : Value) : Prop where
  operation : field? entry "operation" = some (.str name)
  result : isAnalysis name = true → field? entry "applied" = none ∧
    ∃ result, field? entry "result" = some result ∧ Analyzes before result
  applied : isAnalysis name = false → field? entry "applied" = some (.bool (before != after))
  preview : isAnalysis name = false → field? entry "preview" = some (.str (String.ofList
    (if after.length ≤ 100 then after else after.take 100 ++ ['.', '.', '.'])))

/-! ## Analyses -/

theorem longest_concat (ws : List (List Char)) (w : List Char) :
    longest (ws ++ [w]) = if (longest ws).length < w.length then w else longest ws := by
  rw [longest, List.foldl_append]
  rfl

theorem isLongest_longest {ws : List (List Char)} (h : ∀ w ∈ ws, w ≠ []) :
    IsLongest (longest ws) ws := by
  induction ws using List.reverseRecOn with
  | nil => exact .inl ⟨rfl, rfl⟩
  | append_singleton ws w ih =>
    have hw : 0 < w.length := List.length_pos_iff.mpr (h w (by simp))
    refine .inr ?_
    rw [longest_concat]
    rcases ih fun v hv => h v (List.mem_append_left _ hv) with ⟨rfl, hlongest⟩ | ⟨before, after, hws,
      hbefore, hafter⟩
    · rw [if_pos (hlongest ▸ hw)]
      exact ⟨[], [], rfl, List.forall_mem_nil _, List.forall_mem_nil _⟩
    · have most : ∀ v ∈ ws, v.length ≤ (longest ws).length := by
        intro v hv
        rw [hws, List.mem_append, List.mem_cons] at hv
        rcases hv with hv | rfl | hv
        · exact Nat.le_of_lt (hbefore v hv)
        · exact Nat.le_refl _
        · exact hafter v hv
      split
      · rename_i hlt
        exact ⟨ws, [], rfl, fun v hv => Nat.lt_of_le_of_lt (most v hv) hlt, List.forall_mem_nil _⟩
      · rename_i hle
        refine ⟨before, after ++ [w], ?_, hbefore, ?_⟩
        · rw [← List.cons_append, ← List.append_assoc, ← hws]
        · intro v hv
          rcases List.mem_append.mp hv with hv | hv
          · exact hafter v hv
          · rw [List.mem_singleton.mp hv]
            exact Nat.le_of_not_lt hle

theorem length_eraseDups (ws : List (List Char)) : ws.eraseDups.length = ws.toFinset.card := by
  induction ws using List.reverseRecOn with
  | nil => rfl
  | append_singleton ws w ih =>
    have inserted : (ws ++ [w]).toFinset = insert w ws.toFinset := by
      ext v
      simp
    rw [eraseDups_concat, inserted]
    by_cases hw : w ∈ ws
    · rw [if_pos hw, ih, Finset.insert_eq_of_mem (List.mem_toFinset.mpr hw)]
    · rw [if_neg hw, Finset.card_insert_of_notMem fun h => hw (List.mem_toFinset.mp h),
        List.length_append, ih, List.length_singleton]

theorem analyzes_analyze (text : List Char) : Analyzes text (analysisValue (analyze text)) where
  characterCount := by
    rw [analysisValue, field?_ofRows]
    rfl
  wordCount := by
    rw [analysisValue, field?_ofRows]
    rfl
  lineCount := by
    rw [analysisValue, field?_ofRows]
    rfl
  averageLength := by
    rw [analysisValue, field?_ofRows]
    show some (((averageLine text.length (lines text).length).map Value.float).getD (.int 0)) = _
    unfold averageLine
    cases lines text <;> rfl
  longestWord := by
    refine ⟨longest (words text), ?_, isLongest_longest fun w hw => ne_nil_of_mem_runs hw⟩
    rw [analysisValue, field?_ofRows]
    rfl
  uniqueWords := by
    rw [← length_eraseDups, analysisValue, field?_ofRows]
    rfl

/-! ## One operation -/

variable {content} in
theorem folded_analysis {before : List String} {operation : String}
    (h : isAnalysis operation = true) :
    folded content (before ++ [operation]) = folded content before := by
  rw [folded, List.filter_append, List.filter_singleton, h]
  exact congrArg (List.foldl changed content) (List.append_nil _)

variable {content} in
theorem folded_change {before : List String} {operation : String}
    (h : isAnalysis operation = false) :
    folded content (before ++ [operation]) = changed (folded content before) operation := by
  rw [folded, List.filter_append, List.filter_singleton, h, List.foldl_append]
  rfl

theorem folded_unknown {before : List String} {operation : String}
    (h : lowered operation ∉ Transform.names.map Prod.fst) :
    folded content (before ++ [operation]) = folded content before := by
  cases hanalysis : isAnalysis operation with
  | true => exact folded_analysis hanalysis
  | false =>
    have unnamed : Transform.ofName? (lowered operation) = none := Table.find?_eq_none h
    rw [folded_change hanalysis, changed, unnamed, transformed]

theorem advance_actionOf (before : List String) (operation : String) (entries : List Entry) :
    Progress.advance ⟨folded content before, entries⟩ (actionOf operation) =
      ⟨folded content (before ++ [operation]),
        entries ++ [⟨.str operation, noteBehind content before operation⟩]⟩ := by
  cases hanalysis : isAnalysis operation with
  | true =>
    have action : (actionOf operation).2 = .analyze := if_pos hanalysis
    rw [Progress.advance, action, folded_analysis hanalysis, noteBehind, hanalysis, if_pos rfl]
    rfl
  | false =>
    have action : (actionOf operation).2 = .change (Transform.ofName? (lowered operation)) :=
      if_neg (Bool.eq_false_iff.mp hanalysis)
    rw [Progress.advance, action, folded_change hanalysis, noteBehind, hanalysis,
      if_neg Bool.false_ne_true, folded_change hanalysis]
    rfl

theorem describes_noteBehind (before : List String) (operation : String) :
    Describes (folded content before) (folded content (before ++ [operation])) operation
      (Entry.toValue ⟨.str operation, noteBehind content before operation⟩) := by
  unfold Entry.toValue noteBehind
  cases hanalysis : isAnalysis operation with
  | true =>
    have no {p : Prop} (h : isAnalysis operation = false) : p :=
      absurd (h.symm.trans hanalysis) Bool.false_ne_true
    exact ⟨field?_ofRows _ _, fun _ => ⟨field?_ofRows _ _, _, field?_ofRows _ _,
      analyzes_analyze _⟩, no, no⟩
  | false =>
    refine ⟨field?_ofRows _ _, fun h => absurd (hanalysis.symm.trans h) Bool.false_ne_true,
      fun _ => field?_ofRows _ _, fun _ => (field?_ofRows _ _).trans ?_⟩
    generalize folded content (before ++ [operation]) = after
    show some (charsValue (preview after)) = _
    unfold preview charsValue
    by_cases hlength : after.length ≤ 100
    · rw [if_pos hlength, if_neg (Nat.not_lt.mpr hlength), List.take_of_length_le hlength,
        List.append_nil]
    · rw [if_neg hlength, if_pos (Nat.lt_of_not_le hlength)]

theorem folded_of_not_applied {before : List String} {operation : String}
    (h : (noteBehind content before operation).applied = false) :
    folded content (before ++ [operation]) = folded content before := by
  cases hanalysis : isAnalysis operation with
  | true => exact folded_analysis hanalysis
  | false =>
    rw [noteBehind, hanalysis, if_neg Bool.false_ne_true] at h
    have same : (folded content before != folded content (before ++ [operation])) = false := h
    exact (bne_eq_false_iff_eq.mp same).symm

/-! ## All operations -/

/-- The entries that operations leave: each describes the text as those before it left it. -/
def entriesOf (operations : List String) : List Entry :=
  operations.mapIdx fun i operation =>
    ⟨.str operation, noteBehind content (operations.take i) operation⟩

theorem entriesOf_concat (operations : List String) (operation : String) :
    entriesOf content (operations ++ [operation]) =
      entriesOf content operations ++ [⟨.str operation, noteBehind content operations operation⟩] := by
  have last : (operations ++ [operation]).take operations.length = operations := List.take_left
  rw [entriesOf, List.mapIdx_append, List.mapIdx_singleton, Nat.zero_add, last]
  refine congrArg (· ++ _) (List.mapIdx_eq_mapIdx_iff.mpr fun i hi => ?_)
  rw [List.take_append_of_le_length (Nat.le_of_lt hi)]

theorem process_actionOf (operations : List String) :
    process content (operations.map actionOf) =
      ⟨folded content operations, entriesOf content operations⟩ := by
  induction operations using List.reverseRecOn with
  | nil => rfl
  | append_singleton operations operation ih =>
    rw [process] at ih ⊢
    rw [List.map_append, List.foldl_append, ih, entriesOf_concat]
    exact advance_actionOf content operations operation _

theorem length_entriesOf (operations : List String) :
    (entriesOf content operations).length = operations.length := List.length_mapIdx

theorem getElem?_entriesOf {operations : List String} {i : Nat} {operation : String}
    (h : operations[i]? = some operation) : (entriesOf content operations)[i]? =
      some ⟨.str operation, noteBehind content (operations.take i) operation⟩ := by
  rw [entriesOf, List.getElem?_mapIdx, h]
  rfl

theorem field?_applied (e : Entry) :
    field? e.toValue "applied" = some (.bool true) ↔ e.note.applied = true := by
  rw [Entry.toValue, field?_ofRows]
  cases e.note with
  | analysis a =>
    constructor
    · intro h
      cases h
    · intro h
      cases h
  | change applied preview =>
    show some (Value.bool applied) = some (.bool true) ↔ applied = true
    rw [Option.some.injEq, Value.bool.injEq]

theorem folded_of_none_applied {operations : List String}
    (h : ∀ e ∈ entriesOf content operations, e.note.applied = false) :
    folded content operations = content := by
  induction operations using List.reverseRecOn with
  | nil => rfl
  | append_singleton operations operation ih =>
    rw [entriesOf_concat] at h
    have before := ih fun e he => h e (List.mem_append_left _ he)
    have last := h _ (List.mem_append_right _ (List.mem_singleton_self _))
    rw [folded_of_not_applied content last, before]

theorem mapM_readAction (operations : List String) :
    (operations.map Value.str).mapM (fun operation => do
      return (operation, ← readAction operation)) =
      (.ok (operations.map actionOf) : Except Fault (List (Value × Action))) := by
  induction operations with
  | nil => rfl
  | cons operation operations ih =>
    rw [List.map_cons, List.mapM_cons, ih]
    rfl

theorem field?_report_summary (f : TextFile) (p : Progress) (preserve : Bool) :
    field? (report f p preserve) "processing_summary" =
      some (.ofRows [("operations_count", natValue p.entries.length),
        ("content_changed", if preserve then .bool (f.content != p.content) else .null),
        ("final_size", natValue p.content.length)]) := by
  rw [report, field?_ofRows]
  rfl

theorem run_readable {s : Surroundings} {arg : String → Value} {f : TextFile}
    {operations : List String} (hfile : readFile s (arg "file_path") = .ok (some f))
    (hoperations : (arg "operations").items = .ok (operations.map .str)) :
    run s arg = formatOutput (report f
      ⟨folded f.content operations, entriesOf f.content operations⟩
      (arg "preserve_original").truthy) (arg "output_format") := by
  rw [← process_actionOf, run, hfile]
  show (arg "operations").items.bind _ = _
  rw [hoperations]
  show Except.bind ((operations.map Value.str).mapM _) _ = _
  rw [mapM_readAction]
  rfl

/-- A run over a readable file gives out a report that has an entry for each of its operations, the
text that they made, how many they were and how long the text is. The text is changed only if an entry
says so. -/
theorem run_traces (s : Surroundings) (arg : String → Value) (f : TextFile)
    (operations : List String) (hfile : readFile s (arg "file_path") = .ok (some f))
    (hoperations : (arg "operations").items = .ok (operations.map .str)) :
    ∃ data summary entries,
      run s arg = formatOutput data (arg "output_format") ∧
      field? data "operations_applied" = some (.list entries) ∧
      entries.length = operations.length ∧
      (∀ i operation, operations[i]? = some operation → ∃ entry, entries[i]? = some entry ∧
        Describes (folded f.content (operations.take i)) (folded f.content (operations.take (i + 1)))
          operation entry) ∧
      field? data "final_content" = some (.str (String.ofList (folded f.content operations))) ∧
      field? data "processing_summary" = some summary ∧
      field? summary "operations_count" = some (.int operations.length) ∧
      field? summary "final_size" = some (.int (folded f.content operations).length) ∧
      ((∀ entry ∈ entries, field? entry "applied" ≠ some (.bool true)) →
        folded f.content operations = f.content) ∧
      (field? summary "content_changed" = some (.bool true) →
        ∃ entry ∈ entries, field? entry "applied" = some (.bool true)) ∧
      ((arg "preserve_original").truthy = true → field? summary "content_changed" =
        some (.bool (f.content != folded f.content operations))) ∧
      ∀ i operation, operations[i]? = some operation →
        lowered operation ∉ Transform.names.map Prod.fst →
        folded f.content (operations.take (i + 1)) = folded f.content (operations.take i) := by
  have unchanged : (∀ entry ∈ (entriesOf f.content operations).map Entry.toValue,
      field? entry "applied" ≠ some (.bool true)) → folded f.content operations = f.content := by
    intro h
    refine folded_of_none_applied f.content fun e he => Bool.eq_false_iff.mpr fun happlied => ?_
    exact h _ (List.mem_map_of_mem he) ((field?_applied e).mpr happlied)
  have changes : ∀ preserve : Bool, (if preserve then
      Value.bool (f.content != folded f.content operations) else .null) = .bool true →
      ∃ entry ∈ (entriesOf f.content operations).map Entry.toValue,
        field? entry "applied" = some (.bool true) := by
    intro preserve h
    by_contra hnone
    rw [unchanged fun entry he happlied => hnone ⟨entry, he, happlied⟩, bne_self_eq_false] at h
    cases preserve <;> cases h
  refine ⟨_, _, (entriesOf f.content operations).map Entry.toValue, run_readable hfile hoperations,
    ?_, ?_, ?_, ?_, field?_report_summary f _ _, ?_, ?_, unchanged, ?_, ?_, ?_⟩
  · rw [report, field?_ofRows]
    rfl
  · rw [List.length_map, length_entriesOf]
  · intro i operation hi
    refine ⟨_, by rw [List.getElem?_map, getElem?_entriesOf f.content hi]; rfl, ?_⟩
    obtain ⟨hlt, rfl⟩ := List.getElem?_eq_some_iff.mp hi
    rw [List.take_succ_eq_append_getElem hlt]
    exact describes_noteBehind f.content _ _
  · rw [report, field?_ofRows]
    rfl
  · rw [field?_ofRows, ← length_entriesOf f.content operations]
    rfl
  · rw [field?_ofRows]
    rfl
  · intro h
    rw [field?_ofRows] at h
    exact changes _ (Option.some.inj h)
  · intro h
    rw [field?_ofRows, h]
    rfl
  · intro i operation hi hunknown
    obtain ⟨hlt, rfl⟩ := List.getElem?_eq_some_iff.mp hi
    rw [List.take_succ_eq_append_getElem hlt]
    exact folded_unknown f.content hunknown

theorem run_traces_assorted :
    ∃ (s : Surroundings) (arg : String → Value) (f : TextFile),
      readFile s (arg "file_path") = .ok (some f) ∧
      (arg "operations").items = .ok (["Remove_Blank_Lines", "ANALYZE", "shout"].map .str) ∧
      f.content = ['b', '\n', '\n', 'a'] ∧
      ∃ data summary removal analysis result shout,
        run s arg = formatOutput data (.str "json") ∧
        field? data "operations_applied" = some (.list [removal, analysis, shout]) ∧
        field? removal "operation" = some (.str "Remove_Blank_Lines") ∧
        field? removal "applied" = some (.bool true) ∧
        field? removal "preview" = some (.str "b\na") ∧
        field? analysis "result" = some result ∧
        field? result "character_count" = some (.int 3) ∧
        field? shout "applied" = some (.bool false) ∧
        field? data "final_content" = some (.str "b\na") ∧
        field? data "processing_summary" = some summary ∧
        field? summary "operations_count" = some (.int 3) ∧
        field? summary "final_size" = some (.int 3) ∧
        field? summary "content_changed" = some (.bool true) := by
  have hfile : readFile ⟨[(["f"], .file (.text "b\n\na"))], ""⟩ (.str "f") =
      .ok (some ⟨['b', '\n', '\n', 'a'], 4⟩) := by cbv
  have hremoval : folded ['b', '\n', '\n', 'a'] ["Remove_Blank_Lines"] = ['b', '\n', 'a'] := by
    decide +kernel
  have hanalysis : folded ['b', '\n', '\n', 'a'] ["Remove_Blank_Lines", "ANALYZE"] =
      ['b', '\n', 'a'] := by decide +kernel
  have hfolded : folded ['b', '\n', '\n', 'a'] ["Remove_Blank_Lines", "ANALYZE", "shout"] =
      ['b', '\n', 'a'] := by decide +kernel
  let arg (name : String) : Value :=
    (Table.find? [("file_path", .str "f"), ("output_format", .str "json"),
      ("preserve_original", .bool true), ("operations",
        .list (["Remove_Blank_Lines", "ANALYZE", "shout"].map .str))] name).getD .null
  obtain ⟨data, summary, entries, hrun, happlied, hlength, heach, hfinal, hsummary, hcount, hsize, -, -,
    hchanged, -⟩ := run_traces _ arg _ ["Remove_Blank_Lines", "ANALYZE", "shout"] hfile rfl
  obtain ⟨removal, analysis, shout, rfl⟩ := List.length_eq_three.mp hlength
  obtain ⟨_, hentry, hremoved⟩ := heach 0 _ rfl
  cases hentry
  obtain ⟨_, hentry, hanalyzed⟩ := heach 1 _ rfl
  cases hentry
  obtain ⟨_, hentry, hshouted⟩ := heach 2 _ rfl
  cases hentry
  obtain ⟨-, result, hresult, hanalyzes⟩ := hanalyzed.result (by decide +kernel)
  have hcharacters := hanalyzes.characterCount
  have applied := hremoved.applied (by decide +kernel)
  have previewed := hremoved.preview (by decide +kernel)
  have ignored := hshouted.applied (by decide +kernel)
  simp only [List.take_succ_cons, List.take_zero, hremoval] at hcharacters applied previewed
  simp only [List.take_succ_cons, List.take_zero, hanalysis, hfolded] at ignored
  rw [hfolded] at hfinal hsize hchanged
  exact ⟨_, arg, _, hfile, rfl, rfl, data, summary, removal, analysis, result, shout, hrun, happlied,
    hremoved.operation, applied, previewed, hresult, hcharacters, ignored, hfinal, hsummary, hcount,
    hsize, hchanged rfl⟩

end Toolwright.Catalog.FileProcessor
