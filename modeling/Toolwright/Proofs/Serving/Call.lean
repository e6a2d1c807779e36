import Toolwright.Proofs.Lockstep.Published
import Toolwright.Proofs.Serving.Answer

/-!
# Calls of a serving tool

A call makes a new object of the helper class, runs the block on it and answers with the text of the
result. Two calls that start in a world and in a grown one go side by side: they answer the same.
-/

namespace Toolwright

set_option autoImplicit false

/-- What a class of a serving host was made of. -/
structure Served where
  /-- The object that is the definition. -/
  definition : Nat
  helperClass : Nat
  indent : Value
  toolName : String
  answerClass : Nat

/-- A class that serves a definition, or one below it. -/
structure World.Serves (w : World) (c : ClassRef) (t : Served) : Prop where
  call : ∃ k, w.find? c "call" = some (k,
    .ofClass (.serves (.opaqueRef (.object t.definition)) t.helperClass t.indent t.toolName))
  response : ∃ k, w.find? c "Response" =
    some (k, .value (World.classValue (.made t.answerClass)))
  answers : w.Answers t.answerClass
  opens : w.isOpen (.made t.helperClass) = true
  makes : ∀ k a, w.find? (.made t.helperClass) "__new__" ≠ some (.made k, a)

/-- A class of one world and a class of another one that answer alike: what they serve has the same
block and the same helpers, and no call can hand anything on to later ones. -/
structure World.ServesAlike (w v : World) (σ : Nat → Nat) (c c' : ClassRef) (t t' : Served)
    (apart : Nat → Prop) : Prop where
  left : w.Serves c t
  right : v.Serves c' t'
  indent : t'.indent = t.indent
  answers : v.className (.made t'.answerClass) = w.className (.made t.answerClass)
  helpers : v.className (.made t'.helperClass) = w.className (.made t.helperClass)
  stores : w.StoreAlike v t.definition t'.definition fun r r' => r' = σ r ∧
    w.SameHelpers v σ t.helperClass t'.helperClass (· = r) apart False

/-- A class of which the calls cannot hand anything on to later ones. -/
structure World.ServesApart (w : World) (c : ClassRef) (t : Served) (apart : Nat → Prop) :
    Prop extends w.Serves c t where
  stores : w.Stores t.definition fun r =>
    w.SameHelpers w id t.helperClass t.helperClass (· = r) apart False

theorem World.ServesApart.alike {w : World} {c : ClassRef} {t : Served} {apart : Nat → Prop}
    (h : w.ServesApart c t apart) : w.ServesAlike w id c c t t apart :=
  ⟨h.toServes, h.toServes, rfl, rfl, rfl, h.stores.alike fun _ hr => ⟨rfl, hr⟩⟩

/-- A world with a new object of a class that has room for attributes. -/
def World.withObject (w : World) (n : Nat) : World :=
  { w with
    cells := w.cells ++ [.dict []]
    objects := w.objects ++ [⟨.made n, some w.cells.length, []⟩] }

theorem World.keeps_withObject (w : World) (n : Nat) : w.Keeps (w.withObject n) :=
  ⟨rfl, fun _ _ h => h⟩

theorem World.grown_withObject (w : World) (n : Nat) : w.Grown (w.withObject n) :=
  (World.Grown.newCells w _).trans (World.Grown.newObject _ _)

/-! ## Meeting -/

section Meeting

variable {a a' b v w₁ v₁ : World} {σ : Nat → Nat} {h h' : Nat} {block apart : Nat → Prop}

def World.Ahead.meeting (hg : b.Ahead v σ) (a : World) (h h' : Nat) (block apart : Nat → Prop)
    (w₁ v₁ : World) : Link :=
  a.contextLink h h' block apart False hg.toRenaming (w₁.withObject h) (v₁.withObject h')
    w₁.objects.length v₁.objects.length w₁.cells.length (b.cells.length ≤ ·) (b.handles.length ≤ ·)

theorem meeting_below (hg : b.Ahead v σ) :
    (hg.link.extent { w₁ with cells := w₁.cells ++ [.dict []] }).Below
      ((hg.meeting a h h' block apart w₁ v₁).extent (w₁.withObject h)) where
  cell _ hn := hn
  routine _ hr := ⟨.inr (hr.1.resolve_left id), hr.2⟩
  marks := Nat.le_refl _

theorem World.Ahead.linked_left (hg : b.Ahead v σ) (hl : hg.link.Linked w₁ v₁) : b.Grown w₁ :=
  hl.left.grown (World.Grown.refl b) fun _ hn => Nat.le_of_eq hn.symm

theorem World.Ahead.linked_right (hg : b.Ahead v σ) (hl : hg.link.Linked w₁ v₁) : v.Grown v₁ := by
  apply hl.right.grown (World.Grown.refl v)
  rintro n rfl
  exact Nat.le_of_eq (hl.sound.cell_shift 0).symm

theorem meeting_linked (ha : a.Extends b) (ha' : a'.Extends v) (hg : b.Ahead v σ)
    (hl : hg.link.Linked w₁ v₁) (hs : a.SameHelpers a' σ h h' block apart False) :
    (hg.meeting a h h' block apart w₁ v₁).Linked (w₁.withObject h) (v₁.withObject h') := by
  have hnew := hl.newCell (x := .dict []) trivial
  have hstore : hg.toRenaming.cell w₁.cells.length = v₁.cells.length := hl.cell_shift 0
  have hkl : a.Keeps (w₁.withObject h) :=
    (ha.keeps.trans hl.left.keeps).trans (w₁.keeps_withObject h)
  have hkr : a'.Keeps (v₁.withObject h') :=
    (ha'.keeps.trans hl.right.keeps).trans (v₁.keeps_withObject h')
  exact {
    sound := by
      apply hs.sound hkl hkr
      · simp [World.withObject]
      · simp [World.withObject, hstore]
      · intro k hk
        exact moved_below (Nat.lt_of_lt_of_le hk ha.handles.length_le)
      · exact hl.left.cells_le
      · intro n hn
        refine Nat.le_trans hl.left.cells_le (Nat.le_trans ?_ hn)
        simp [World.withObject]
      · exact hnew.cell_shift
      · intro k hk
        exact Nat.le_trans hl.left.handles_le hk
      · exact hl.left.logFrom.trans (hl.sound.logFrom.trans hl.right.logFrom.symm)
    left := Preserved.refl _ _ _
    right := Preserved.refl _ _ _
    cells := hnew.cells
    within := fun n x hn hx => (hnew.within n x hn hx).mono (meeting_below hg)
    cell_shift := hnew.cell_shift
    handles := by
      intro r hr hlt
      obtain ⟨_, hf, _⟩ := hl.handles r hr hlt
      exact hf.elim
    routine_shift := hnew.routine_shift
    mark_shift := hnew.mark_shift
    extras := by
      intro hx
      obtain ⟨hxl, hxr⟩ := hs.extras hx
      have hw : w₁.extras = [] := ((hg.linked_left hl).extras.trans ha.extras).trans hxl
      have hv : v₁.extras = [] := ((hg.linked_right hl).extras.trans ha'.extras).trans hxr
      show v₁.extras = w₁.extras.map _ ∧ ∀ row ∈ w₁.extras, _
      rw [hw, hv]
      exact ⟨rfl, by simp⟩ }

theorem Link.Faults.eq {L : Link} {f g : Fault} (hf : L.Faults f g)
    (hc : L.right.world.className (.made L.right.cls) = L.left.world.className (.made L.left.cls)) :
    f = g := by
  cases hf with
  | same => rfl
  | ofObject => rw [hc]
  | ofClass => rw [hc]

end Meeting

/-! ## The block of a call -/

namespace Machine

/-- The block of a call runs on the helper object, and the result gets its text. -/
def serveOn (m : Machine) (cls : ClassRef) (self block indent : Value) (named : Named) :
    Run (Access × String) := do
  let result ← m.invoke block [self] named
  let answers ← m.reach (World.classValue cls) "Response"
  let text ← m.resultText result indent
  return (answers, text)

def answerWith (m : Machine) (told : Access × String) : Run Value := do
  let content ← Run.share (.list [.ofRows [("type", .str "text"), ("text", .str told.2)]])
  m.use told.1 [content] []

end Machine

namespace Link

variable {L : Link} {m : Machine} {e : Extent}

theorem prepare_agree (hm : L.Faithful m) (hp : L.present) :
    L.Agree e Equal (m.prepare L.left.context [] []) (m.prepare L.right.context [] []) := by
  unfold Machine.prepare
  apply Agree.world
  intro w v hl he
  rcases hl.special?_context hp (show "__init__" ∈ specials by decide) with
    ⟨h, h'⟩ | ⟨a, a', h, h', ha⟩
  · rw [h, h']
    exact .ok hl (Extent.Below.refl _) rfl
  · rw [h, h']
    refine Agree.bind (hm.use ha (Args.none _)) ?_ w v hl (Extent.Below.refl _)
    rintro e₁ x _ _ ⟨_, rfl⟩
    cases x with
    | null => exact Agree.pure fun _ _ => rfl
    | _ => exact Agree.throw (.same _)

theorem reachValue_agree {c c' : ClassRef} {name : String} {x y : Value}
    (ho : Kind.object.attribute? name = none) (ht : Kind.type.attribute? name = none)
    (hl : ∃ k, L.left.world.find? c name = some (k, .value x))
    (hr : ∃ k, L.right.world.find? c' name = some (k, .value y)) :
    L.Agree e (fun _ a b => a = .value x ∧ b = .value y)
      (m.reach (World.classValue c) name) (m.reach (World.classValue c') name) := by
  intro w v hw _
  obtain ⟨k, hk⟩ := hl
  obtain ⟨k', hk'⟩ := hr
  unfold Alike
  rw [reach_class ho ht, reach_class ho ht, World.find?_congr hw.left.classes,
    World.find?_congr hw.right.classes, hk, hk']
  exact .ok hw (Extent.Below.refl _) ⟨rfl, rfl⟩

/-- Both runs have the same text, for an answer of the class that each of them has. -/
def SameText (x y : Value) (_ : Extent) (p q : Access × String) : Prop :=
  p.2 = q.2 ∧ p.1 = .value x ∧ q.1 = .value y

theorem serveOn_agree (hm : L.Faithful m) {c c' : ClassRef} {r : Nat} {x y : Value}
    (hr : L.helper r) (hl : ∃ k, L.left.world.find? c "Response" = some (k, .value x))
    (hv : ∃ k, L.right.world.find? c' "Response" = some (k, .value y)) (indent : Value)
    {named : Named} (hn : Named.Within e named) :
    L.Agree e (SameText x y)
      (m.serveOn c L.left.context (routineValue r) indent named)
      (m.serveOn c' L.right.context (routineValue (L.ρ.routine r)) indent
        (Named.rename L.ρ named)) := by
  unfold Machine.serveOn
  apply Agree.bind (hm.run hr (show Args e [] named from ⟨by simp, hn⟩))
  rintro e₂ z _ _ ⟨hz, rfl⟩
  apply Agree.bind (reachValue_agree (by decide) (by decide) hl hv)
  rintro e₃ _ _ h₃ ⟨rfl, rfl⟩
  apply Agree.bind (resultText_agree hm (hz.mono h₃) indent)
  rintro e₄ text _ _ rfl
  exact Agree.pure fun _ _ => ⟨rfl, rfl, rfl⟩

end Link

/-! ## A call -/

namespace Machine

variable {w : World} {n k : Nat}

theorem exec_helperObject (ho : w.isOpen (.made n) = true)
    (hm : ∀ k a, w.find? (.made n) "__new__" ≠ some (.made k, a)) :
    ((nested (k + 1)).invoke (World.classValue (.made n)) [] []).exec w =
      Run.exec (do
        (nested k).prepare (.opaqueRef (.object w.objects.length)) [] []
        return .opaqueRef (.object w.objects.length)) (w.withObject n) := by
  have hcls : (w.withObject n).classOf (.opaqueRef (.object w.objects.length)) = .made n := by
    simp [World.classOf, World.withObject]
  have hlineage : ((w.withObject n).lineage ((w.withObject n).classOf
      (.opaqueRef (.object w.objects.length)))).contains (.made n) = true := by
    rw [hcls]
    simp [World.lineage]
  show Run.exec ((nested k).instantiate (.made n) [] []) w = _
  unfold instantiate
  dsimp only
  rw [Run.exec_bind, exec_newInstance _ hm (.inl rfl), exec_newObject ho]
  show Run.exec _ (w.withObject n) = _
  rw [Run.exec_bind, Run.exec_world]
  dsimp only
  rw [if_pos hlineage]

theorem exec_serve_error {definition : Value} {f : Fault} (m : Machine) (c : ClassRef)
    (indent : Value) (toolName : String) (named : Named) (h : (m.storedBlock definition).exec w = (.error f, w)) :
    (m.serve c definition n indent toolName named).exec w = (.error f, w) := by
  unfold serve
  rw [Run.exec_bind, h]

theorem exec_serve {o r : Nat} (c : ClassRef) (indent : Value) (toolName : String) (named : Named)
    (hb : w.Shows o "execute_block" (routineValue r)) (ho : w.isOpen (.made n) = true)
    (hm : ∀ k a, w.find? (.made n) "__new__" ≠ some (.made k, a)) :
    ∃ log, ((nested (k + 1)).serve c (.opaqueRef (.object o)) n indent toolName named).exec w =
      Run.exec (do
        let told ← (do
          (nested k).prepare (.opaqueRef (.object w.objects.length)) [] []
          (nested (k + 1)).serveOn c (.opaqueRef (.object w.objects.length)) (routineValue r)
            indent named)
        (nested (k + 1)).answerWith told) ({ w with log }.withObject n) := by
  obtain ⟨log, hlog⟩ := exec_note adaptersLogger 10
    ("MCP tool call: " ++ toolName ++ "(" ++ ", ".intercalate (Table.keys named) ++ ")") w
  refine ⟨log, ?_⟩
  have hmade := exec_helperObject (w := { w with log }) (k := k) ho hm
  unfold serve
  rw [Run.exec_bind, exec_storedBlock _ hb]
  dsimp only
  rw [Run.exec_bind, hlog]
  dsimp only
  rw [Run.exec_bind, hmade]
  refine (Run.exec_bind _ _ _).symm.trans ?_
  simp only [serveOn, bind_assoc, pure_bind]
  rfl

theorem outcome_answerWith (h : w.Answers n) (text : String) :
    Session.outcome ((nested (k + 2)).answerWith (.value (World.classValue (.made n)), text)) w =
      (.ok (toldAnswer (w.className (.made n)) text),
        (w.withContent text).withAnswer n w.newContent) := by
  have hc : (w.withContent text).Answers n := h.congr rfl
  have hrun : ((nested (k + 2)).answerWith (.value (World.classValue (.made n)), text)).exec w =
      (.ok (.opaqueRef (.object w.objects.length)),
        (w.withContent text).withAnswer n w.newContent) := by
    unfold answerWith
    rw [Run.exec_bind, exec_shareContent]
    exact exec_answer hc rfl k
  have htold := ofValue_answer h text
  unfold Run.exec at hrun
  unfold Session.outcome
  rw [hrun]
  exact congrArg (·, _) htold

end Machine

theorem World.grown_withAnswer (w : World) (n : Nat) (text : String) :
    w.Grown ((w.withContent text).withAnswer n w.newContent) :=
  (World.Grown.newCells w _).trans
    ((World.Grown.newCells (w.withContent text) _).trans (World.Grown.newObject _ _))

namespace World

variable {a a' b v w₁ v₁ : World} {σ : Nat → Nat} {c c' : ClassRef} {t t' : Served}
  {apart : Nat → Prop}

/-- Two computations are told alike, and what was there before the second one is kept. -/
structure ToldAlike (v : World) (x y : Except Fault Answer × World) : Prop where
  told : x.1 = y.1
  grown : v.Grown y.2

theorem ToldAlike.trans {v u : World} {x y : Except Fault Answer × World} (h : u.ToldAlike x y)
    (hg : v.Grown u) : v.ToldAlike x y :=
  ⟨h.told, hg.trans h.grown⟩

theorem outcome_eq (r : Run Value) (w : World) :
    Session.outcome r w = ((r.exec w).1.bind (Answer.ofValue (r.exec w).2), (r.exec w).2) := rfl

theorem outcome_bind {α : Type} (r : Run α) (k : α → Run Value) (w : World) :
    Session.outcome (r >>= k) w =
      match r.exec w with
      | (.ok a, w) => Session.outcome (k a) w
      | (.error f, w) => (.error f, w) := by
  rw [outcome_eq, Run.exec_bind]
  cases r.exec w with
  | mk result w => cases result <;> rfl

theorem meeting_alike (hs : a.ServesAlike a' σ c c' t t' apart) (ha : a.Extends b)
    (ha' : a'.Extends v) (hg : b.Ahead v σ) (hl : hg.link.Linked w₁ v₁) {r : Nat}
    (hsame : a.SameHelpers a' σ t.helperClass t'.helperClass (· = r) apart False) {named : Named}
    (hn : Named.Within (hg.link.extent w₁) named) (k : Nat) :
    (hg.meeting a t.helperClass t'.helperClass (· = r) apart w₁ v₁).Alike
      (Link.SameText (classValue (.made t.answerClass)) (classValue (.made t'.answerClass)))
      (w₁.withObject t.helperClass) (v₁.withObject t'.helperClass)
      (do
        (Machine.nested k).prepare (.opaqueRef (.object w₁.objects.length)) [] []
        (Machine.nested (k + 1)).serveOn c (.opaqueRef (.object w₁.objects.length))
          (routineValue r) t.indent named)
      (do
        (Machine.nested k).prepare (.opaqueRef (.object v₁.objects.length)) [] []
        (Machine.nested (k + 1)).serveOn c' (.opaqueRef (.object v₁.objects.length))
          (routineValue (σ r)) t.indent (Named.rename hg.toRenaming named)) := by
  let L := hg.meeting a t.helperClass t'.helperClass (· = r) apart w₁ v₁
  have hm := meeting_linked ha ha' hg hl hsame
  have classes : (w₁.withObject t.helperClass).classes = a.classes := hl.left.classes.trans ha.classes
  have classes' : (v₁.withObject t'.helperClass).classes = a'.classes :=
    hl.right.classes.trans ha'.classes
  have hleft : ∃ k, (w₁.withObject t.helperClass).find? c "Response" = some (k,
      .value (World.classValue (.made t.answerClass))) := by
    rw [World.find?_congr classes]
    exact hs.left.response
  have hright : ∃ k, (v₁.withObject t'.helperClass).find? c' "Response" = some (k,
      .value (World.classValue (.made t'.answerClass))) := by
    rw [World.find?_congr classes']
    exact hs.right.response
  have below : (hg.link.extent w₁).Below
      (hg.link.extent { w₁ with cells := w₁.cells ++ [.dict []] }) :=
    Link.extent_below (by simp) (Nat.le_refl _) (Nat.le_refl _)
  have within : Named.Within (L.extent (w₁.withObject t.helperClass)) named :=
    Named.Within.mono (below.trans (meeting_below hg)) hn
  obtain ⟨body, hbody, -⟩ := hsame.ofInstance r (.inr rfl)
  have hrenamed : L.ρ.routine r = σ r := moved_below
    (Nat.lt_of_lt_of_le (List.getElem?_eq_some_iff.mp hbody).1 ha.handles.length_le)
  have agree := Link.Agree.bind (e := L.extent (w₁.withObject t.helperClass))
    (Link.prepare_agree (L := L) (Link.faithful_nested L k) trivial)
    fun e₁ _ _ he _ => Link.serveOn_agree (Link.faithful_nested L (k + 1)) (.inr rfl)
      hleft hright t.indent (Named.Within.mono he within)
  rw [hrenamed] at agree
  exact agree _ _ hm (Extent.Below.refl _)

theorem answered_alike {L : Link} {u : World} {n n' : Nat} {r r' : Run (Access × String)}
    (h : L.Alike (Link.SameText (classValue (.made n)) (classValue (.made n'))) w₁ v₁ r r')
    (hc : L.right.world.className (.made L.right.cls) = L.left.world.className (.made L.left.cls))
    (ha : L.left.world.Answers n) (ha' : L.right.world.Answers n')
    (hn : L.right.world.className (.made n') = L.left.world.className (.made n))
    (hg : ∀ v, Preserved (· = L.ρ.cell L.store) L.settable L.right.world v → u.Grown v) (k : Nat) :
    u.ToldAlike (Session.outcome (r >>= (Machine.nested (k + 2)).answerWith) w₁)
      (Session.outcome (r' >>= (Machine.nested (k + 2)).answerWith) v₁) := by
  unfold Link.Alike at h
  rw [outcome_bind, outcome_bind]
  generalize r.exec w₁ = x at h
  generalize r'.exec v₁ = y at h
  cases h with
  | error hl _ hf => exact ⟨congrArg Except.error (hf.eq hc), hg _ hl.right⟩
  | @ok p q w v hl _ hq =>
    obtain ⟨access, text⟩ := p
    obtain ⟨access', text'⟩ := q
    obtain ⟨htext, haccess, haccess'⟩ := hq
    obtain rfl : text = text' := htext
    obtain rfl : access = _ := haccess
    obtain rfl : access' = _ := haccess'
    have left : w.Answers n := ha.congr hl.left.classes
    have right : v.Answers n' := ha'.congr hl.right.classes
    dsimp only
    rw [Machine.outcome_answerWith left, Machine.outcome_answerWith right,
      className_congr hl.left.classes, className_congr hl.right.classes, hn]
    exact ⟨rfl, (hg _ hl.right).trans (grown_withAnswer _ _ _)⟩

theorem serveOn_told (hs : a.ServesAlike a' σ c c' t t' apart) (ha : a.Extends b)
    (ha' : a'.Extends v) (hg : b.Ahead v σ) (hl : hg.link.Linked w₁ v₁) {r : Nat}
    (hsame : a.SameHelpers a' σ t.helperClass t'.helperClass (· = r) apart False) {named : Named}
    (hn : Named.Within (hg.link.extent w₁) named) (k : Nat) :
    v₁.ToldAlike
      (Session.outcome (do
        let told ← (do
          (Machine.nested (k + 1)).prepare (.opaqueRef (.object w₁.objects.length)) [] []
          (Machine.nested (k + 2)).serveOn c (.opaqueRef (.object w₁.objects.length))
            (routineValue r) t.indent named)
        (Machine.nested (k + 2)).answerWith told) (w₁.withObject t.helperClass))
      (Session.outcome (do
        let told ← (do
          (Machine.nested (k + 1)).prepare (.opaqueRef (.object v₁.objects.length)) [] []
          (Machine.nested (k + 2)).serveOn c' (.opaqueRef (.object v₁.objects.length))
            (routineValue (σ r)) t.indent (Named.rename hg.toRenaming named))
        (Machine.nested (k + 2)).answerWith told) (v₁.withObject t'.helperClass)) := by
  have hleft : (w₁.withObject t.helperClass).classes = a.classes := hl.left.classes.trans ha.classes
  have hright : (v₁.withObject t'.helperClass).classes = a'.classes :=
    hl.right.classes.trans ha'.classes
  apply answered_alike (meeting_alike hs ha ha' hg hl hsame hn (k + 1))
  · exact (className_congr hright _).trans (hs.helpers.trans (className_congr hleft _).symm)
  · exact hs.left.answers.congr hleft
  · exact hs.right.answers.congr hright
  · exact (className_congr hright _).trans (hs.answers.trans (className_congr hleft _).symm)
  · intro u hu
    apply hu.grown (grown_withObject v₁ t'.helperClass)
    rintro n rfl
    exact Nat.le_of_eq (hl.cell_shift 0).symm

theorem isOpen_congr {w b : World} (h : w.classes = b.classes) (c : ClassRef) :
    w.isOpen c = b.isOpen c := by
  unfold World.isOpen
  rw [lineage_congr h, h]

theorem Serves.kept (hs : a.Serves c t) (ha : a.Extends b) :
    b.isOpen (.made t.helperClass) = true ∧
      ∀ k x, b.find? (.made t.helperClass) "__new__" ≠ some (.made k, x) := by
  constructor
  · rw [World.isOpen_congr ha.classes]
    exact hs.opens
  · intro k x
    rw [World.find?_congr ha.classes]
    exact hs.makes k x

theorem serve_alike (hs : a.ServesAlike a' σ c c' t t' apart) (ha : a.Extends b)
    (ha' : a'.Extends v) (hg : b.Ahead v σ) (hl : hg.link.Linked w₁ v₁) {named : Named}
    (hn : Named.Within (hg.link.extent w₁) named) (k : Nat) :
    v.ToldAlike
      (Session.outcome ((Machine.nested (k + 2)).serve c (.opaqueRef (.object t.definition))
        t.helperClass t.indent t.toolName named) w₁)
      (Session.outcome ((Machine.nested (k + 2)).serve c' (.opaqueRef (.object t'.definition))
        t'.helperClass t'.indent t'.toolName (Named.rename hg.toRenaming named)) v₁) := by
  have hv := hg.linked_right hl
  have left : a.Extends w₁ := ha.trans (hg.linked_left hl).holds
  have right : a'.Extends v₁ := ha'.trans hv.holds
  rw [hs.indent]
  rcases hs.stores with ⟨hr, hr', rfl, hsame⟩ | ⟨hnone, hnone'⟩
  · obtain ⟨opens, makes⟩ := hs.left.kept left
    obtain ⟨opens', makes'⟩ := hs.right.kept right
    obtain ⟨log, hleft⟩ := Machine.exec_serve (k := k + 1) c t.indent t.toolName named
      (hr.kept left) opens makes
    obtain ⟨log', hright⟩ := Machine.exec_serve (k := k + 1) c' t.indent t'.toolName
      (Named.rename hg.toRenaming named) (hr'.kept right) opens' makes'
    rw [outcome_eq, outcome_eq, hleft, hright, ← outcome_eq, ← outcome_eq]
    exact (serveOn_told hs ha ha' hg (hl.log log log') hsame hn k).trans (hv.log log')
  · have failed := Machine.exec_serve_error (n := t.helperClass) _ c t.indent t.toolName named
      (hnone (Machine.nested (k + 2)) w₁ left)
    have failed' := Machine.exec_serve_error (n := t'.helperClass) _ c' t.indent t'.toolName
      (Named.rename hg.toRenaming named) (hnone' (Machine.nested (k + 2)) v₁ right)
    unfold Run.exec at failed failed'
    unfold Session.outcome
    rw [failed, failed']
    exact ⟨rfl, hv⟩

end World

/-! ## Steps that call -/

namespace Machine

def namedOf (args : List Literal) (named : Literal.Rows) : Run Named := do
  let args ← Run.literals args
  let named ← Run.literalRows named
  takeServerContext args named

theorem exec_call {w : World} {c : ClassRef} {t : Served} (hs : ∃ k, w.find? c "call" = some (k,
      .ofClass (.serves (.opaqueRef (.object t.definition)) t.helperClass t.indent t.toolName)))
    (k : Nat) (args : List Literal) (named : Literal.Rows) :
    ((nested (k + 1)).callAttribute (World.classValue c) "call" args named).exec w =
      Run.exec (do
        let named ← namedOf args named
        (nested k).serve c (.opaqueRef (.object t.definition)) t.helperClass t.indent t.toolName
          named) w := by
  obtain ⟨holder, hf⟩ := hs
  unfold callAttribute namedOf
  rw [Run.exec_bind, Link.reach_class (by decide) (by decide), hf]
  simp only [bind_assoc]
  rfl

end Machine

namespace Link

variable {L : Link} {e : Extent}

theorem takeServerContext_agree {args : List Value} {named : Named} (hn : Named.Within e named) :
    L.Agree e L.RenamedNamed (Machine.takeServerContext args named)
      (Machine.takeServerContext (args.map (Value.rename L.ρ)) (Named.rename L.ρ named)) := by
  cases args with
  | nil =>
    exact Agree.pure fun e' he => ⟨Named.within_erase (hn.mono he), Named.erase_rename _ _ _⟩
  | cons x args =>
    cases args with
    | nil =>
      simp only [List.map_cons, List.map_nil, Machine.takeServerContext, Named.find?_rename,
        Option.isSome_map]
      split
      · exact Agree.throw (.same _)
      · exact Agree.pure fun e' he => ⟨hn.mono he, rfl⟩
    | cons => exact Agree.throw (.same _)

theorem namedOf_agree (args : List Literal) (named : Literal.Rows) :
    L.Agree e L.RenamedNamed (Machine.namedOf args named) (Machine.namedOf args named) := by
  unfold Machine.namedOf
  apply Agree.bind (literals_agree args)
  rintro e₁ args _ _ ⟨_, rfl⟩
  apply Agree.bind (literalRows_agree named)
  rintro e₂ named _ _ ⟨hn, rfl⟩
  exact takeServerContext_agree hn

end Link

namespace World

variable {a a' b v : World} {σ : Nat → Nat} {c c' : ClassRef} {t t' : Served} {apart : Nat → Prop}

theorem call_alike (hs : a.ServesAlike a' σ c c' t t' apart) (ha : a.Extends b)
    (ha' : a'.Extends v) (hg : b.Ahead v σ) (k : Nat) (args : List Literal)
    (named : Literal.Rows) :
    v.ToldAlike
      (Session.outcome ((Machine.nested (k + 3)).callAttribute (classValue c) "call" args named) b)
      (Session.outcome ((Machine.nested (k + 3)).callAttribute (classValue c') "call" args named)
        v) := by
  have alike := Link.namedOf_agree (e := hg.link.extent b) args named b v hg.linked
    (Extent.Below.refl _)
  have called : ∃ k, b.find? c "call" = some (k, .ofClass
      (.serves (.opaqueRef (.object t.definition)) t.helperClass t.indent t.toolName)) := by
    rw [find?_congr ha.classes]
    exact hs.left.call
  have called' : ∃ k, v.find? c' "call" = some (k, .ofClass
      (.serves (.opaqueRef (.object t'.definition)) t'.helperClass t'.indent t'.toolName)) := by
    rw [find?_congr ha'.classes]
    exact hs.right.call
  rw [outcome_eq, outcome_eq, Machine.exec_call called, Machine.exec_call called',
    ← outcome_eq, ← outcome_eq, outcome_bind, outcome_bind]
  unfold Link.Alike at alike
  generalize (Machine.namedOf args named).exec b = x at alike
  generalize (Machine.namedOf args named).exec v = y at alike
  cases alike with
  | error hl _ hf => exact ⟨congrArg Except.error (hg.faults_eq hf), hg.linked_right hl⟩
  | ok hl _ hq =>
    obtain ⟨hn, rfl⟩ := hq
    exact serve_alike hs ha ha' hg hl hn k

end World

namespace Session

/-- A call of the tool that an id stands for. -/
structure ToolCall where
  cls : String
  args : List Literal
  named : Literal.Rows

def ToolCall.step (call : ToolCall) : Step := .callClass call.cls "call" call.args call.named

def Serving (w : World) (id : String) : Prop :=
  ∀ c, Table.find? w.classIds id = some c → ∃ t apart, w.ServesApart c t apart

variable {b v : World}

theorem exec_classById {w : World} (hw : w.classIds = b.classIds) (id : String) :
    (Run.classById id).exec w =
      match Table.find? b.classIds id with
      | some c => (.ok c, w)
      | none => (.error (.unknownId id), w) := by
  unfold Run.classById Run.resolveId
  rw [Run.exec_bind, Run.exec_world, ← hw]
  dsimp only
  cases Table.find? w.classIds id <;> rfl

theorem perform_call_alike {call : ToolCall} (hs : Serving b call.cls) (hg : b.Grown v) :
    (perform v call.step).1.outcome = (perform b call.step).1.outcome ∧
      v.Grown (perform v call.step).2 := by
  let b' : World := { b with log := [] }
  let v' : World := { v with log := [] }
  have hb : b.Grown b' := (World.Grown.refl b).log []
  have hv : v.Grown v' := (World.Grown.refl v).log []
  have hg' : b'.Grown v' := { hg with
    rest := congrArg (fun w : World => { w with log := [] }) hg.rest }
  have told : v'.ToldAlike (outcome (machine.step call.step) b')
      (outcome (machine.step call.step) v') := by
    have step : machine.step call.step = (do
      (Machine.nested 999).callAttribute (World.classValue (← Run.classById call.cls)) "call" call.args
        call.named) := rfl
    have found (w : World) (hw : w.classIds = b.classIds) := exec_classById hw call.cls
    rw [step, World.outcome_bind, World.outcome_bind, found b' rfl, found v' hg.classIds]
    cases hc : Table.find? b.classIds call.cls with
    | none => exact ⟨rfl, World.Grown.refl _⟩
    | some c =>
      obtain ⟨t, apart, ht⟩ := hs c hc
      exact World.call_alike ht.alike hb.holds (hb.trans hg').holds hg'.ahead 996 call.args
        call.named
  exact ⟨told.told.symm, hv.trans told.grown⟩

/-- Calls of serving tools do not remember: each one answers what it answers as the first one, and
whatever was there before is there afterwards. -/
theorem calls_forget {calls : List ToolCall} (hs : ∀ call ∈ calls, Serving b call.cls) :
    (performAll b (calls.map ToolCall.step)).1.map Reply.outcome =
        calls.map (fun call => (perform b call.step).1.outcome) ∧
      b.Grown (performAll b (calls.map ToolCall.step)).2 := by
  have later (v : World) (hg : b.Grown v) :
      (performAll v (calls.map ToolCall.step)).1.map Reply.outcome =
          calls.map (fun call => (perform b call.step).1.outcome) ∧
        v.Grown (performAll v (calls.map ToolCall.step)).2 := by
    induction calls generalizing v with
    | nil => exact ⟨rfl, World.Grown.refl v⟩
    | cons call calls ih =>
      obtain ⟨hfirst, hgrown⟩ := perform_call_alike (hs call List.mem_cons_self) hg
      obtain ⟨hrest, hlast⟩ := ih (fun c hc => hs c (List.mem_cons_of_mem _ hc))
        (perform v call.step).2 (hg.trans hgrown)
      exact ⟨congr (congrArg List.cons hfirst) hrest, hgrown.trans hlast⟩
  exact later b (World.Grown.refl b)

end Session

end Toolwright
