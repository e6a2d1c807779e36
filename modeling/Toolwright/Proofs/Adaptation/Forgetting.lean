import Toolwright.Proofs.Adaptation.Contexts

/-!
# Calls of adapted definitions

A definition that was adapted for a serving host is called on a new helper object each time. What a
call does with it is gone afterwards, whatever is called later.
-/

namespace Toolwright

set_option autoImplicit false

namespace World

variable {w v : World} {own : Nat → Prop} {p : Draft} {D : Definition Stored} {C : Nat → Prop}
  {b c : ClassRef} {a n : Nat}

/-! ## Answers of a serving host -/

/-- A class of which the tools answer with objects of a class. -/
structure AnswersWith (w : World) (b : ClassRef) (a : Nat) : Prop where
  rooted : w.Rooted (.made a)
  response : ∃ k, w.find? b "Response" = some (k, .value (classValue (.made a)))
  answers : w.Answers a

theorem LeadsTo.answers (hl : w.LeadsTo v) (hr : w.Rooted (.made a)) (h : w.Answers a) :
    v.Answers a where
  makes k x := by
    rw [hl.find? hr (by decide)]
    exact h.makes k x
  fills := by
    rw [hl.find? hr (by decide)]
    exact h.fills
  sets k x := by
    rw [hl.find? hr (by decide)]
    exact h.sets k x
  content := by
    rw [hl.find? hr (by decide)]
    exact h.content
  isError := by
    rw [hl.find? hr (by decide)]
    exact h.isError
  opens := by
    rw [hl.isOpen hr]
    exact h.opens
  shape := by
    rw [hl.shape? hr]
    exact h.shape

theorem LeadsTo.answersWith (hl : w.LeadsTo v) (hb : w.Rooted b) (h : w.AnswersWith b a) :
    v.AnswersWith b a where
  rooted := hl.rooted h.rooted
  response := by
    rw [hl.find? hb (by decide)]
    exact h.response
  answers := hl.answers h.rooted h.answers

/-- A class that is called as another one is: itself, or one below it that replaces neither what is
called nor what the answers are made of. -/
def CalledAs (w : World) (c : ClassRef) (n : Nat) : Prop :=
  ∀ name ∈ ["call", "Response"], w.find? c name = w.find? (.made n) name

end World

namespace Machine

variable {w v : World} {own : Nat → Prop} {n a : Nat} {b c : ClassRef} {p : Draft}
  {D : Definition Stored} {C : Nat → Prop} {indent : Value} {text : String} {s : InputSchema}

def servedOf (p : Draft) (n : Nat) (indent : Value) (text : String) (a : Nat) : Served :=
  ⟨p.object, n, indent, text, a⟩

theorem ServedTool.serves (h : ServedTool w n b p D indent text s C) (ha : w.AnswersWith b a)
    (hmaker : D.helper? "__new__" = none) (hc : w.CalledAs c (n + 1)) :
    w.Serves c (servedOf p n indent text a) := by
  obtain ⟨own, hhelpers, hown⟩ := h.helpers
  obtain ⟨own', q, properties, htool, hown', -⟩ := h.tool
  refine ⟨⟨.made (n + 1), ?_⟩, ?_, ha.answers, hhelpers.opens, fun k x => ?_⟩
  · rw [hc _ (by decide)]
    exact htool.find?_own hown'.call
  · rw [hc _ (by decide), htool.find?_above (hown'.others _ (by decide) (by decide))]
    exact ha.response
  · have hnone : own "__new__" = none := by
      rw [hown.helpers _ (by decide), hmaker]
      rfl
    show w.find? (.made n) "__new__" ≠ _
    rw [hhelpers.find?_above hnone]
    exact World.find?_builtIn_ne_made w .object _ k x

theorem ServedTool.notHost (h : ServedTool w n b p D indent text s C)
    (hc : w.Contextual D n fun _ => True) :
    ∀ k, .made k ∈ w.lineage (.made n) → w.Rooted (.made k) ∧ ¬ w.IsHost k := by
  obtain ⟨own, hcls, -⟩ := h.helpers
  intro k hk
  rw [hcls.lineage] at hk
  obtain rfl : k = n := by simpa [World.lineage, World.above] using hk
  refine ⟨hc.rooted, ?_⟩
  rintro ⟨j, f, hf⟩
  obtain ⟨i, hi⟩ := hc.finds "tool_name" (neutral_of_startsWith (by decide +kernel) (by decide)) trivial
  obtain ⟨⟨scope, x⟩, -, he⟩ := Option.map_eq_some_iff.mp (hi.symm.trans hf)
  cases scope <;> cases he

end Machine

namespace World

variable {w v : World} {c : ClassRef} {t : Served} {n : Nat} {D : Definition Stored}

theorem LeadsTo.serves (hl : w.LeadsTo v) (hc : w.Rooted c) (ha : w.Rooted (.made t.answerClass))
    (hh : w.Rooted (.made t.helperClass)) (h : w.Serves c t) : v.Serves c t where
  call := by
    rw [hl.find? hc (by decide)]
    exact h.call
  response := by
    rw [hl.find? hc (by decide)]
    exact h.response
  answers := hl.answers ha h.answers
  opens := by
    rw [hl.isOpen hh]
    exact h.opens
  makes k x := by
    rw [hl.find? hh (by decide)]
    exact h.makes k x

theorem Serves.calledAs (h : w.Serves (.made n) t) (hc : w.CalledAs c n) : w.Serves c t :=
  { h with
    call := by
      rw [hc _ (by decide)]
      exact h.call
    response := by
      rw [hc _ (by decide)]
      exact h.response }

structure ServesWith (w : World) (c : ClassRef) (t : Served) (D : Definition Stored) : Prop
    extends w.Serves c t where
  rooted : w.Rooted c
  rootedAnswers : w.Rooted (.made t.answerClass)
  contextual : w.Contextual D t.helperClass fun _ => True
  notHost : ∀ k, .made k ∈ w.lineage (.made t.helperClass) → w.Rooted (.made k) ∧ ¬ w.IsHost k

theorem LeadsTo.servesWith (hl : w.LeadsTo v) (h : w.ServesWith c t D) : v.ServesWith c t D where
  toServes := hl.serves h.rooted h.rootedAnswers h.contextual.rooted h.toServes
  rooted := hl.rooted h.rooted
  rootedAnswers := hl.rooted h.rootedAnswers
  contextual := hl.contextual h.contextual fun name _ =>
    hl.find?_notHost h.contextual.rooted h.notHost name
  notHost k hk := by
    rw [hl.lineage h.contextual.rooted] at hk
    obtain ⟨hroot, hnot⟩ := h.notHost k hk
    refine ⟨hl.rooted hroot, fun ⟨j, f, hf⟩ => hnot ⟨j, f, ?_⟩⟩
    rwa [hl.find? hroot (by decide)] at hf

theorem Bundled.nine_le (h : w.Bundled) : 9 ≤ w.classes.length := by
  have hlast := h.classes 8 (by decide) (by decide)
  have hsome : Session.start.classes[8]?.isSome = true := by decide
  rw [← hlast] at hsome
  obtain ⟨cls, hcls⟩ := Option.isSome_iff_exists.mp hsome
  exact (List.getElem?_eq_some_iff.mp hcls).1

end World

namespace Session

variable {w v : World} {d c : String} {p : Draft} {D : Definition Stored} {C : Nat → Prop}
  {base : Option String} {b : ClassRef} {a : Nat} {config : Option ConfigDraft} {answer : Answer}
  {log : List Record}

theorem MeetsServingHost.serves_toMcp (h : MeetsServingHost w d p D C base b)
    (ha : w.AnswersWith b a) (hmaker : D.helper? "__new__" = none)
    (hp : perform w (.toMcp (some d) c base config) = (⟨.ok answer, log⟩, v)) :
    ∃ n text indent given u, Table.find? v.classIds c = some (.made (n + 1)) ∧
      Configures { w with log := [] } config given u ∧
      (∀ m : Machine, (m.indentOf given).exec u = (.ok indent, u)) ∧
      v.ServesWith (.made (n + 1)) (Machine.servedOf p n indent text a) D := by
  obtain ⟨u₀, n, text, s, given, u, indent, C₀, hlater, hn, hv, hgiven, hindent, -, -, -, -, -,
    htool⟩ := perform_toMcp h.toHolds h.host h.bases (a := answer) (by rw [hp])
  rw [hp] at hv
  subst hv
  have hbefore : w.LeadsTo u₀ := World.LeadsTo.refl.later hlater
  have hctx := htool.contextual (Nat.le_trans h.bundled.nine_le hn)
    (h.unchanged hlater).declares.toDrafts
  have hanswers := hbefore.answersWith h.host.rooted ha
  have htop : u₀.Rooted (.made (n + 1)) := by
    obtain ⟨own, q, properties, hcls, -⟩ := htool.tool
    exact hcls.rooted (hbefore.rooted h.host.rooted)
  have hserves : u₀.ServesWith (.made (n + 1)) (Machine.servedOf p n indent text a) D :=
    { htool.serves hanswers hmaker (c := .made (n + 1)) fun _ _ => rfl with
      rooted := htop
      rootedAnswers := hanswers.rooted
      contextual := hctx
      notHost := htool.notHost hctx }
  exact ⟨n, text, indent, given, u, (Table.find?_insert _ _ _ _).trans (if_pos rfl), hgiven, hindent,
    (World.LeadsTo.refl.named _).servesWith hserves⟩

/-- Calls of a definition that was adapted for a serving host do not remember: each one answers what
it answers as the first one, and whatever was there before is there afterwards. -/
theorem served_calls_forget (h : MeetsServingHost w d p D C base b) (ha : w.AnswersWith b a)
    (hmaker : D.helper? "__new__" = none)
    (hp : perform w (.toMcp (some d) c base config) = (⟨.ok answer, log⟩, v)) :
    ∃ n, Table.find? v.classIds c = some (.made n) ∧
      ∀ u p' D' C' apart, v.LeadsTo u → u.Declares p' D' C' → p'.object = p.object →
        D.Modest D'.block (fun _ => True) True False apart → ((∃ r, apart r) → u.extras = []) →
        ∀ calls : List ToolCall,
          (∀ call ∈ calls, ∀ cls, Table.find? u.classIds call.cls = some cls → u.CalledAs cls n) →
          (performAll u (calls.map ToolCall.step)).1.map Reply.outcome =
              calls.map (fun call => (perform u call.step).1.outcome) ∧
            u.Grown (performAll u (calls.map ToolCall.step)).2 := by
  obtain ⟨n, text, indent, -, -, hc, -, -, hserves⟩ := h.serves_toMcp ha hmaker hp
  refine ⟨n + 1, hc, ?_⟩
  intro u p' D' C' apart hleads hd hplace hmodest hx calls hcalls
  have hlast := hleads.servesWith hserves
  have hstores := hd.stores_same hlast.contextual hlast.contextual
    (hmodest.mono fun _ _ => ⟨trivial, trivial⟩) (fun _ => rfl) hx
  refine calls_forget fun call hcall cls hcls => ⟨Machine.servedOf p n indent text a, apart, ?_, ?_⟩
  · exact hlast.toServes.calledAs (hcalls call hcall cls hcls)
  · show u.Stores p.object _
    rw [← hplace]
    exact hstores

theorem answersWith_start : start.AnswersWith servingClassRef answerClass where
  rooted := rooted_start (by decide)
  response := ⟨.made 1, rfl⟩
  answers :=
    { makes := fun k a h => by cases h
      fills := ⟨2, _, _, rfl⟩
      sets := fun k a h => by cases h
      content := rfl
      isError := ⟨2, rfl⟩
      opens := by decide
      shape := ⟨_, rfl⟩ }

def noting : List Builder :=
  [.help .ofInstance "note" (.mk [] none (.setAttr "seen" (.lit (.bool true)))),
    .execute (.mk [] none (.list [.hasAttr "seen", .helper "note" [] []]))]

theorem noting_modest {D : Definition Stored} {x : Value}
    (h : Definition.Built { name := x } noting D) :
    D.Modest D.block (fun _ => True) True False fun _ => False where
  permits s hs u hu := by
    have asked : ∀ op ∈ noting, ∀ block, op.block? = some block → ∀ u ∈ block.uses,
        ∃ name ∈ ["seen", "note"], u = .asked name ∨ u = .called name ∨ u = .written name := by
      decide
    rcases h.of_mem_bodies hs with hm | ⟨op, hop, he⟩
    · cases hm
    · obtain ⟨name, hname, hu⟩ := asked op hop _ he u hu
      have plain : ∀ name ∈ ["seen", "note"], name.startsWith "__" = false ∧ name ≠ "mro" := by
        decide +kernel
      obtain ⟨hs, hm⟩ := plain name hname
      rcases hu with rfl | rfl | rfl
      all_goals exact ⟨neutral_of_startsWith hs hm, trivial⟩
  apart _ _ h := h.elim

set_option maxRecDepth 100000 in
theorem served_calls_forget_noting : ∃ w p D C a log v n,
    MeetsServingHost w "d" p D C none servingClassRef ∧ w.AnswersWith servingClassRef answerClass ∧
    D.helper? "__new__" = none ∧
    perform w (.toMcp (some "d") "M" none none) = (⟨.ok a, log⟩, v) ∧ v.Declares p D C ∧
    D.Modest D.block (fun _ => True) True False (fun _ => False) ∧ Table.find? v.classIds "M" = some (.made n) ∧
    ∀ calls : List ToolCall, (∀ call ∈ calls, call.cls = "M") →
      (performAll v (calls.map ToolCall.step)).1.map Reply.outcome =
          calls.map (fun call => (perform v call.step).1.outcome) ∧
        v.Grown (performAll v (calls.map ToolCall.step)).2 := by
  have told : (perform start (.define "d" (.str "tool") none)).1.outcome.isOk = true ∧
      (perform (declaring (.str "tool") noting)
        (.toMcp (some "d") "M" none none)).1.outcome.isOk = true := by
    decide +kernel
  obtain ⟨p, D, C, x, -, hm, hbuilt, hhelp, hleads, -⟩ := declaring_meets noting told.1
  obtain ⟨answer, log, hl⟩ := exists_perform told.2
  have hanswers := hleads.answersWith servingBase_start.rooted answersWith_start
  have hmodest := noting_modest hbuilt
  have hmaker : D.helper? "__new__" = none :=
    Definition.helper?_none fun scope => (hhelp scope _).trans (by cases scope <;> rfl)
  have hheld := hm.holds_toMcp (show (perform _ (.toMcp (some "d") "M" none none)).1.outcome =
    .ok answer by rw [hl])
  obtain ⟨n, hn, hforget⟩ := served_calls_forget hm hanswers hmaker hl
  refine ⟨_, p, D, C, answer, log, _, n, hm, hanswers, hmaker, hl, hheld.toDeclares, hmodest, hn,
    fun calls hcalls => ?_⟩
  refine hforget _ p D C _ World.LeadsTo.refl hheld.toDeclares rfl hmodest
    (fun hx => hx.elim fun _ => False.elim) calls fun call hcall cls hcls => ?_
  rw [hcalls call hcall] at hcls
  obtain rfl : ClassRef.made n = cls := Option.some.inj (hn.symm.trans hcls)
  exact fun _ _ => rfl

/-- Sessions in which a call finds what an earlier one set: a helper of instances gets the class of
the context as its context, or an operation that all classes have is asked for. -/
def rememberedCalls : List (List Step) :=
  [[.define "d" (.str "tool") none,
      .help (some "d") .ofInstance "mark" (.mk [] none (.setAttr "seen" (.lit (.bool true)))),
      .execute (some "d") (.mk [] none (.list [.hasAttr "seen",
        .classHelper "mark" [.getAttr "__class__" .null] []])),
      .toMcp (some "d") "M" none none, .callClass "M" "call" [] [], .callClass "M" "call" [] []],
    [.define "d" (.str "tool") none,
      .help (some "d") .ofClass "shout" (.mk [] none (.lit .null)),
      .execute (some "d") (.mk [("set", some (.bool true))] none (.cond (.var "set")
        (.classHelper "__setattr__"
          [.getAttr "shout" .null, .lit (.str "seen"), .lit (.bool true)] [])
        (.classHelper "__getattribute__" [.getAttr "shout" .null, .lit (.str "seen")] []))),
      .toMcp (some "d") "M" none none, .callClass "M" "call" [] [("set", .bool false)],
      .callClass "M" "call" [] [], .callClass "M" "call" [] [("set", .bool false)]]]

def answerText (reply : Reply) : Option String :=
  match reply.outcome with
  | .ok (.response _ ((_, .list [.dict [_, (_, .str text)]]) :: _)) => some text
  | _ => none

set_option maxRecDepth 100000 in
/-- What is set elsewhere than on the context is remembered. -/
theorem calls_remember :
    rememberedCalls.map (fun steps => (replies 30 steps).filterMap answerText) =
      [["[\n  false,\n  null\n]", "[\n  true,\n  null\n]"], ["None", "True"]] := by
  decide +kernel

end Session

end Toolwright
