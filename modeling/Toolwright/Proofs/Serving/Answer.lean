import Toolwright.Proofs.Serving.Reading

/-!
# Answers that are made

An answer is a new object of an answer class with two attributes. What is told of it is the text of
its one content block, under the name of its class.
-/

namespace Toolwright

set_option autoImplicit false

/-- A class that makes and fills its objects as the bundled class of answers does. -/
structure World.Answers (w : World) (n : Nat) : Prop where
  makes : ∀ k a, w.find? (.made n) "__new__" ≠ some (.made k, a)
  fills : ∃ k s name, w.find? (.made n) "__init__" =
    some (.made k, .ofObject (.bundled (.record (.response s name) .fill)))
  sets : ∀ k a, w.find? (.made n) "__setattr__" ≠ some (.made k, a)
  content : w.find? (.made n) "content" = none
  isError : ∃ k, w.find? (.made n) "is_error" = some (.made k, .value (.bool false))
  opens : w.isOpen (.made n) = true
  shape : ∃ name, w.shape? (.made n) = some (.response n name)

namespace World.Answers

variable {w v : World} {n : Nat}

theorem congr (h : w.Answers n) (hc : v.classes = w.classes) : v.Answers n where
  makes k a := by rw [World.find?_congr hc]; exact h.makes k a
  fills := by rw [World.find?_congr hc]; exact h.fills
  sets k a := by rw [World.find?_congr hc]; exact h.sets k a
  content := by rw [World.find?_congr hc]; exact h.content
  isError := by rw [World.find?_congr hc]; exact h.isError
  opens := by
    have := h.opens
    unfold World.isOpen at this ⊢
    rwa [World.lineage_congr hc, hc]
  shape := by rw [World.shape?_congr hc]; exact h.shape

end World.Answers

def answerFields (content : Value) : Value :=
  .dict [(.str "content", content), (.str "is_error", .bool false)]

def World.withAnswer (w : World) (n : Nat) (content : Value) : World :=
  { w with
    cells := w.cells ++ [answerFields content]
    objects := w.objects ++ [⟨.made n, some w.cells.length, []⟩] }

namespace Machine

variable {w : World} {n : Nat}

/-- An object is made of a class that takes nothing over, and has a cell of its own. -/
theorem exec_newObject (ho : w.isOpen (.made n) = true) :
    (Run.newObject (.made n)).exec w = (.ok (.opaqueRef (.object w.objects.length)),
      { w with
        cells := w.cells ++ [.dict []]
        objects := w.objects ++ [⟨.made n, some w.cells.length, []⟩] }) := by
  unfold World.isOpen at ho
  unfold Run.newObject
  rw [Run.exec_bind, Run.exec_world]
  dsimp only
  rw [if_pos (by exact ho)]
  rfl

theorem exec_newInstance (m : Machine) (hm : ∀ k a, w.find? (.made n) "__new__" ≠ some (.made k, a))
    {args : List Value} {named : Named}
    (ha : args.isEmpty && named.isEmpty ∨ isBuiltIn w (.made n) "__init__" = false) :
    (m.newInstance (.made n) args named).exec w = (Run.newObject (.made n)).exec w := by
  unfold newInstance
  rw [Run.exec_bind, Run.exec_world]
  dsimp only
  have hb : (args.isEmpty && named.isEmpty || !isBuiltIn w (.made n) "__init__") = true := by
    rcases ha with ha | ha
    · rw [ha, Bool.true_or]
    · rw [ha, Bool.not_false, Bool.or_true]
  split
  · rename_i k a hf
    exact absurd hf (hm k a)
  · rw [if_pos hb]

theorem exec_plainAssign {o cell : Nat} {obj : HostObject} {name : String} {x : Value}
    {rows : List (Value × Value)} (ho : w.objects[o]? = some obj) (hc : obj.cls = .made n)
    (ha : obj.attributes = some cell) (hr : w.cells[cell]? = some (.dict rows))
    (hf : w.find? (.made n) name = none ∨ ∃ k v, w.find? (.made n) name = some (.made k, .value v)) :
    (plainAssign (.opaqueRef (.object o)) name x).exec w =
      (.ok (), w.store (.cell cell)
        (.dict (Table.insertBy Value.same (.str name) x rows))) := by
  have hcls : w.classOf (.opaqueRef (.object o)) = .made n := by
    simp only [World.classOf, ho, Option.map_some, Option.getD_some, hc]
  have hcell : w.attributeCell? (.opaqueRef (.object o)) = some cell := by
    simp only [World.attributeCell?, ho, Option.bind_some, ha]
  have written : (writeCell cell name x).exec w = (.ok (), w.store (.cell cell)
      (.dict (Table.insertBy Value.same (.str name) x rows))) := by
    unfold writeCell
    rw [Run.exec_modify]
    simp only [World.contents, World.cell, hr, Option.getD_some, Value.rows?]
  have found : (attributeCell (.opaqueRef (.object o))).exec w = (.ok (some cell), w) := by
    unfold attributeCell
    rw [Run.exec_bind, Run.exec_world]
    simp only [hcell]
    rfl
  unfold plainAssign
  rw [Run.exec_bind, Run.exec_world]
  dsimp only
  rw [hcls]
  rcases hf with hf | ⟨k, v, hf⟩
  · rw [hf]
    dsimp only
    rw [Run.exec_bind, found]
    exact written
  · rw [hf]
    dsimp only
    rw [Run.exec_bind, found]
    exact written

theorem exec_fill (m : Machine) (h : w.Answers n) {o cell : Nat} {obj : HostObject} {x : Value}
    (ho : w.objects[o]? = some obj) (hc : obj.cls = .made n) (ha : obj.attributes = some cell)
    (hr : w.cells[cell]? = some (.dict [])) (hx : Run.share x = pure x) (s : Nat) (name : String) :
    (m.applyRecordMethod (.response s name) .fill [.opaqueRef (.object o), x] []).exec w =
      (.ok .null, { w with cells := w.cells.set cell (answerFields x) }) := by
  have hargs : ∃ arg, bindAll (RecordMethod.fill.signature (.response s name)).takes
      [.opaqueRef (.object o), x] [] = .ok arg ∧ arg "self" = .opaqueRef (.object o) ∧
      arg "content" = x ∧ arg "is_error" = .bool false := ⟨_, rfl, rfl, rfl, rfl⟩
  obtain ⟨arg, hbind, hself, hcontent, herror⟩ := hargs
  have assigned (w' : World) (name : String) (y : Value) (hc' : w'.classes = w.classes)
      (ho' : w'.objects = w.objects) :
      (m.assign (.opaqueRef (.object o)) name y).exec w' =
        (plainAssign (.opaqueRef (.object o)) name y).exec w' := by
    have hcls : w'.classOf (.opaqueRef (.object o)) = .made n := by
      simp only [World.classOf, ho', ho, Option.map_some, Option.getD_some, hc]
    unfold assign
    rw [Run.exec_bind, Run.exec_world]
    simp only [special?_none hcls (h.congr hc').sets]
  have hlt : cell < w.cells.length := (List.getElem?_eq_some_iff.mp hr).1
  have first := @exec_plainAssign w n o cell obj "content" x [] ho hc ha hr (.inl h.content)
  have second := @exec_plainAssign (w.store (.cell cell) (.dict [(.str "content", x)])) n o cell obj
    "is_error" (.bool false) _ ho hc ha (List.getElem?_set_self hlt)
    (.inr (h.isError.imp fun k hk => ⟨_, hk⟩))
  unfold applyRecordMethod
  rw [hbind]
  show Run.exec (m.fillRecord (.response s name) arg) w = _
  have each (f : String → Run Unit) : ["content", "is_error"].forM f =
      (do f "content"; f "is_error"; pure ()) := rfl
  unfold fillRecord
  simp only [Shape.fields, each, hself, hcontent, herror, hx, Run.share, bind_assoc, pure_bind]
  rw [Run.exec_bind, assigned w "content" x rfl rfl, first]
  dsimp only
  rw [Run.exec_bind, assigned (w.store _ _) "is_error" (.bool false) rfl rfl]
  simp only [Table.insertBy]
  rw [second]
  have both : Table.insertBy Value.same (.str "is_error") (.bool false) [(.str "content", x)] =
      [(.str "content", x), (.str "is_error", .bool false)] := by
    simp [Table.insertBy, Value.same]
  simp only [World.store, List.set_set, both]
  rfl

theorem exec_answer (h : w.Answers n) {x : Value} (hx : Run.share x = pure x) (k : Nat) :
    ((Machine.nested (k + 2)).use (.value (World.classValue (.made n))) [x] []).exec w =
      (.ok (.opaqueRef (.object w.objects.length)), w.withAnswer n x) := by
  let made : World := { w with
    cells := w.cells ++ [.dict []]
    objects := w.objects ++ [⟨.made n, some w.cells.length, []⟩] }
  have hobj : made.objects[w.objects.length]? = some ⟨.made n, some w.cells.length, []⟩ := by
    simp [made]
  have hcls : made.classOf (.opaqueRef (.object w.objects.length)) = .made n := by
    simp only [World.classOf, hobj, Option.map_some, Option.getD_some]
  have hmade : made.Answers n := h.congr rfl
  obtain ⟨holder, s, name, hfill⟩ := hmade.fills
  have hinit : isBuiltIn w (.made n) "__init__" = false := by
    obtain ⟨k, s, name, hf⟩ := h.fills
    unfold isBuiltIn
    rw [hf]
  have hcell : made.cells[w.cells.length]? = some (.dict []) := by simp [made]
  have hfilled := exec_fill (Machine.nested k) hmade hobj rfl rfl hcell hx s name
  have hspecial : made.special? (.opaqueRef (.object w.objects.length)) "__init__" =
      some (.function (.bundled (.record (.response s name) .fill))
        (some (.opaqueRef (.object w.objects.length)))) := by
    unfold World.special?
    dsimp only
    rw [hcls, hfill]
    rfl
  have hlineage : (made.lineage (made.classOf (.opaqueRef (.object w.objects.length)))).contains
      (.made n) = true := by
    rw [hcls]
    simp [World.lineage]
  have hprepare : ((Machine.nested (k + 1)).prepare (.opaqueRef (.object w.objects.length)) [x]
      []).exec made = (.ok (), w.withAnswer n x) := by
    unfold prepare
    rw [Run.exec_bind, Run.exec_world]
    dsimp only
    rw [hspecial]
    dsimp only
    rw [Run.exec_bind]
    have hcall : ((Machine.nested (k + 1)).use
        (.function (.bundled (.record (.response s name) .fill))
          (some (.opaqueRef (.object w.objects.length)))) [x] []).exec made =
        (.ok .null, w.withAnswer n x) := by
      refine hfilled.trans ?_
      simp only [made, World.withAnswer]
      rw [List.set_append_right _ _ (Nat.le_refl _), Nat.sub_self]
      rfl
    rw [hcall]
    rfl
  show Run.exec ((Machine.nested (k + 1)).instantiate (.made n) [x] []) w = _
  unfold instantiate
  dsimp only
  rw [Run.exec_bind, exec_newInstance _ h.makes (.inr hinit), exec_newObject h.opens]
  dsimp only
  rw [Run.exec_bind, Run.exec_world]
  dsimp only
  rw [if_pos hlineage, Run.exec_bind, hprepare]
  rfl

end Machine

/-! ## What is told of an answer -/

def textBlock (text : String) : Value := .dict [(.str "type", .str "text"), (.str "text", .str text)]

/-- A world with the content of an answer in its last two cells. -/
def World.withContent (w : World) (text : String) : World :=
  { w with
    cells := w.cells ++ [textBlock text, .list [World.placeValue (.cell w.cells.length)]] }

def World.newContent (w : World) : Value := World.placeValue (.cell (w.cells.length + 1))

/-- An answer as it is told: one content block, and no error. -/
def toldAnswer (className text : String) : Answer :=
  .response className (Answer.document ["content", "isError"]
    [.list [.dict [(.str "type", .str "text"), (.str "text", .str text)]], .bool false])

theorem exec_shareContent (text : String) (w : World) :
    (Run.share (.list [.ofRows [("type", .str "text"), ("text", .str text)]])).exec w =
      (.ok w.newContent, w.withContent text) := by
  show (Except.ok (World.placeValue (.cell (w.cells ++ [textBlock text]).length)), { w with
    cells := (w.cells ++ [textBlock text]) ++ [Value.list [World.placeValue (.cell w.cells.length)]] }) = _
  rw [List.length_append, List.append_assoc]
  rfl

theorem World.follow_succ (inside? : Opaque → Option (Except Fault Value))
    (again : Value → Except Fault Value) (depth : Nat) (around : List Opaque) (o : Opaque)
    {x : Value} (hx : inside? o = some (.ok x)) (ho : o ∉ around) :
    follow inside? again (depth + 1) around o = expand (follow inside? again depth (o :: around)) x := by
  rw [follow, hx]
  simp [ho]
  rfl

theorem exposed_answer {w : World} {n : Nat} (h : w.Answers n) (text : String) :
    ∃ name, ((w.withContent text).withAnswer n w.newContent).exposed
      (.opaqueRef (.object w.objects.length)) =
        .ok (.record (.response n name) [.list [textBlock text], .bool false]) := by
  let u := (w.withContent text).withAnswer n w.newContent
  obtain ⟨name, hname⟩ := h.shape
  have hlen : u.cells.length = w.cells.length + 3 := by simp [u, World.withContent, World.withAnswer]
  have hobj : u.objects[w.objects.length]? = some ⟨.made n, some (w.cells.length + 2), []⟩ := by
    simp [u, World.withContent, World.withAnswer]
  have hfields : u.cells[w.cells.length + 2]? = some (answerFields w.newContent) := by
    simp [u, World.withContent, World.withAnswer]
  have hlist : u.cells[w.cells.length + 1]? =
      some (.list [World.placeValue (.cell w.cells.length)]) := by
    simp [u, World.withContent, World.withAnswer]
  have hblock : u.cells[w.cells.length]? = some (textBlock text) := by
    simp [u, World.withContent, World.withAnswer]
  have hcls : u.classOf (.opaqueRef (.object w.objects.length)) = .made n := by
    simp only [World.classOf, hobj, Option.map_some, Option.getD_some]
  have hcell : u.attributeCell? (.opaqueRef (.object w.objects.length)) =
      some (w.cells.length + 2) := by
    simp only [World.attributeCell?, hobj, Option.bind_some]
  have hset (name : String) : u.setAttribute? (.opaqueRef (.object w.objects.length)) name =
      ([(Value.str "content", w.newContent), (Value.str "is_error", Value.bool false)].find?
        fun row => Value.same row.1 (.str name)).map (·.2) := by
    unfold World.setAttribute?
    rw [hcell]
    simp only [Option.bind_eq_bind, Option.bind_some, World.cell, hfields, Option.getD_some,
      answerFields, Value.rows?]
    cases List.find? _ _ <;> rfl
  have hcontent : u.kept (.opaqueRef (.object w.objects.length)) "content" = .ok w.newContent := by
    unfold World.kept
    rw [hset]
    simp [Value.same]
  have herror : u.kept (.opaqueRef (.object w.objects.length)) "is_error" = .ok (.bool false) := by
    unfold World.kept
    rw [hset]
    simp [Value.same]
  have hshape : u.shape? (.made n) = some (.response n name) :=
    (World.shape?_congr (w := u) (b := w) rfl _).trans hname
  have hinside : u.inside? (.object w.objects.length) =
      some (.ok (.record (.response n name) [w.newContent, .bool false])) := by
    unfold World.inside?
    dsimp only
    rw [hcls, hshape]
    simp only [Option.map_some, Shape.fields, List.mapM_cons, List.mapM_nil, hcontent, herror]
    rfl
  have hdepth : u.referenceCount = (u.cells.length + u.classes.length + u.objects.length - 1) + 1 + 1
      + 1 := by
    unfold World.referenceCount
    omega
  refine ⟨name, ?_⟩
  show World.expand (World.follow u.inside? (fun _ => .error .tooDeep) u.referenceCount [])
    (.opaqueRef (.object w.objects.length)) = _
  rw [hdepth, World.expand, World.follow_succ _ _ _ _ _ hinside (by simp)]
  simp only [World.expand, World.expandItems, World.newContent, World.placeValue]
  rw [World.follow_succ _ _ _ _ (.place (.cell (w.cells.length + 1)))
    (x := .list [World.placeValue (.cell w.cells.length)]) (by
      simp only [World.inside?, World.contents, World.cell, hlist, Option.getD_some]) (by simp)]
  simp only [World.expand, World.expandItems, World.placeValue]
  rw [World.follow_succ _ _ _ _ (.place (.cell w.cells.length)) (x := textBlock text) (by
      simp only [World.inside?, World.contents, World.cell, hblock, Option.getD_some]) (by simp)]
  rfl

theorem ofValue_answer {w : World} {n : Nat} (h : w.Answers n) (text : String) :
    Answer.ofValue ((w.withContent text).withAnswer n w.newContent)
      (.opaqueRef (.object w.objects.length)) =
        .ok (toldAnswer (w.className (.made n)) text) := by
  obtain ⟨name, hx⟩ := exposed_answer h text
  unfold Answer.ofValue
  rw [hx]
  rfl

end Toolwright
