import Sailbot.Ui.LogEntry

/-!
# The current value of a field

`WebSocketServer::GetCurrentVal` (`ui/server.cc`) and `GetProtoNumberField`
(`util/proto_util.cc`). The web page asks for a value by the names of the fields on the way
to it, separated by dots; the first is the queue. The names come from the network, and the
methods of reflection that the walk calls abort the process on fields of the wrong kind.

* `getCurrentVal_returns_iff` — which names are answered, and which bring the server down.
* `getCurrentVal_queue`       — the name of a whole queue is always answered.
-/

namespace Sailbot.Ui

open Lib

variable {T D : Type}

-- ---------------------------------------------------------------------------
-- The walk
-- ---------------------------------------------------------------------------

/-- `find` on what is left of a text. -/
def find (c : Char) (text : List Char) : Option Nat := text.findIdx? (· == c)

/-- Where a character is found, it splits the text there, and it is not in front. -/
theorem find_eq_some {c : Char} {text : List Char} {n : Nat} (h : find c text = some n) :
    c ∉ text.take n ∧ text = text.take n ++ c :: text.drop (n + 1) := by
  obtain ⟨hLt, hAt, hBefore⟩ := List.findIdx?_eq_some_iff_getElem.mp h
  constructor
  · intro hMem
    obtain ⟨i, hi, hEq⟩ := List.mem_take_iff_getElem.mp hMem
    have := hBefore i (by omega)
    simp_all
  · have hc : text[n] = c := by simpa using hAt
    rw [← hc, List.getElem_cons_drop, List.take_append_drop]

/-- A character is found inside the text. -/
theorem find_lt {c : Char} {text : List Char} {n : Nat} (h : find c text = some n) :
    n < text.length :=
  (List.findIdx?_eq_some_iff_getElem.mp h).1

/-- A character that is not found is not in the text. -/
theorem find_eq_none {c : Char} {text : List Char} (h : find c text = none) : c ∉ text := by
  intro hMem
  simpa using List.findIdx?_eq_none_iff.mp h c hMem

/-- `GetProtoNumberField`. -/
def getProtoNumberField [DecidableEq T] (ofInt : Int → D) {R : Messages T D} {t : T}
    (field : FieldDescriptor T) (m : R.Message t) : Except Misuse D :=
  match field.type with
  | .double => getScalar .double R.getDouble m field
  | .float => getScalar .float R.getFloat m field
  | .bool => (fun b => ofInt (if b then 1 else 0)) <$> getScalar .bool R.getBool m field
  | .enum => ofInt <$> getScalar .enum R.getEnumValue m field
  | .int32 | .sint32 | .sfixed32 => ofInt <$> getScalar .int32 R.getInt32 m field
  | .int64 | .sfixed64 | .sint64 => ofInt <$> getScalar .int64 R.getInt64 m field
  | .uint32 | .fixed32 => ofInt <$> getScalar .uint32 R.getUInt32 m field
  | .uint64 | .fixed64 => ofInt <$> getScalar .uint64 R.getUInt64 m field
  | .string | .bytes | .message _ => .ok (ofInt 0)

/-- The loop over the names before the last: what is left of the name, and the message that
the last name is a field of. -/
def walk (S : Schema T) {R : Messages T D} (rest : List Char) (m : Sigma R.Message) :
    Except Misuse (Option (List Char × Sigma R.Message)) :=
  match _hNext : find '.' rest with
  | none => .ok (some (rest, m))
  | some next =>
    match S.findFieldByName m.1 (rest.take next) with
    | none => .ok none
    | some f =>
      match getMessage m.2 f with
      | .error e => .error e
      | .ok sub => walk S (rest.drop (next + 1)) sub
termination_by rest.length
decreasing_by
  have := find_lt _hNext
  rw [List.length_drop]
  omega

/-- What the two output functions make of a value: `MessageToJsonString`, and a number
with 15 digits. `ofInt` is the conversion to `double`. -/
structure Printer (R : Messages T D) where
  toJson : {t : T} → R.Message t → List Char
  number : D → List Char
  ofInt  : Int → D

/-- The value of a field that is set. -/
def showField [DecidableEq T] {R : Messages T D} (P : Printer R) {t : T} (m : R.Message t)
    (f : FieldDescriptor T) : Except Misuse (List Char) :=
  match f.type.cppType with
  | .message _ => (fun sub => P.toJson sub.2) <$> getMessage m f
  | .string => getScalar .string R.getString m f
  | _ => P.number <$> getProtoNumberField P.ofInt f m

/-- From the message that the last name is a field of. -/
def showLast [DecidableEq T] (S : Schema T) {R : Messages T D} (P : Printer R)
    (msg last : List Char) (m : Sigma R.Message) : Except Misuse (List Char) :=
  match S.findFieldByName m.1 last with
  | none => .ok []
  | some f =>
    match hasField m.2 f with
    | .error e => .error e
    | .ok false => .ok []
    | .ok true => (fun out => ['"'] ++ msg ++ ['"', ':'] ++ out ++ [',']) <$> showField P m.2 f

/-- From the loop on: the walk along `rest`, and the field that it ends at. -/
def answer [DecidableEq T] (S : Schema T) {R : Messages T D} (P : Printer R)
    (msg rest : List Char) (m : Sigma R.Message) : Except Misuse (List Char) :=
  match walk S rest m with
  | .error e => .error e
  | .ok none => .ok []
  | .ok (some (last, m)) => showLast S P msg last m

/-- The name of the queue that is asked for. -/
def queueName (msg : List Char) : List Char :=
  match find '.' msg with
  | none => msg
  | some next => msg.take next

/-- `GetCurrentVal`; `msgs` has the last message of every queue that has sent one. -/
def getCurrentVal {R : Messages MsgType D} (P : Printer R)
    (msgs : List Char → Option (R.Message .logEntry)) (msg : List Char) :
    Except Misuse (List Char) :=
  match msgs (queueName msg) with
  | none => .ok []
  | some entry => answer schema P msg msg ⟨.logEntry, entry⟩

-- ---------------------------------------------------------------------------
-- Paths
-- ---------------------------------------------------------------------------

/-- A name cut at its dots. -/
def pathOf : List Char → List (List Char)
  | [] => [[]]
  | c :: text =>
    if c = '.' then [] :: pathOf text
    else
      match pathOf text with
      | [] => [[c]]
      | name :: names => (c :: name) :: names

/-- A path has at least one name. -/
theorem pathOf_ne_nil (text : List Char) : pathOf text ≠ [] := by
  induction text with
  | nil => simp [pathOf]
  | cons c text ih =>
    rw [pathOf]
    split
    · simp
    · split <;> simp

/-- A text without a dot is a path of one name. -/
theorem pathOf_of_not_mem {text : List Char} (h : '.' ∉ text) : pathOf text = [text] := by
  induction text with
  | nil => rfl
  | cons c text ih =>
    obtain ⟨hc, hText⟩ := not_or.mp (List.mem_cons.not.mp h)
    rw [pathOf, if_neg (Ne.symm hc), ih hText]

/-- A name in front of a dot is the first of the path. -/
theorem pathOf_append {name : List Char} (h : '.' ∉ name) (text : List Char) :
    pathOf (name ++ '.' :: text) = name :: pathOf text := by
  induction name with
  | nil => simp [pathOf]
  | cons c name ih =>
    obtain ⟨hc, hName⟩ := not_or.mp (List.mem_cons.not.mp h)
    rw [List.cons_append, pathOf, if_neg (Ne.symm hc), ih hName]

/-- The path where the loop finds no dot. -/
theorem pathOf_find_none {text : List Char} (h : find '.' text = none) : pathOf text = [text] :=
  pathOf_of_not_mem (find_eq_none h)

/-- The path where the loop finds a dot. -/
theorem pathOf_find_some {text : List Char} {n : Nat} (h : find '.' text = some n) :
    pathOf text = text.take n :: pathOf (text.drop (n + 1)) := by
  obtain ⟨hNot, hEq⟩ := find_eq_some h
  calc pathOf text = pathOf (text.take n ++ '.' :: text.drop (n + 1)) := by rw [← hEq]
    _ = text.take n :: pathOf (text.drop (n + 1)) := pathOf_append hNot _

-- ---------------------------------------------------------------------------
-- What is answered
-- ---------------------------------------------------------------------------

/-- The accessors fit the types: reading a singular number never fails. -/
theorem getProtoNumberField_returns [DecidableEq T] (ofInt : Int → D) {R : Messages T D} {t : T}
    {f : FieldDescriptor T} (hSingular : f.Singular) (m : R.Message t) :
    ∃ x, getProtoNumberField ofInt f m = .ok x := by
  unfold getProtoNumberField
  split
  all_goals first
    | exact ⟨_, rfl⟩
    | (rename_i hType
       rw [getScalar_ok hSingular (by rw [hType]; rfl)]
       exact ⟨_, rfl⟩)

/-- The three ways to read a field between them cover every type. -/
theorem showField_returns [DecidableEq T] {R : Messages T D} (P : Printer R) {t : T}
    {f : FieldDescriptor T} (hSingular : f.Singular) (m : R.Message t) :
    ∃ out, showField P m f = .ok out := by
  unfold showField
  split
  case h_1 u hType =>
    rw [getMessage_ok hSingular (FieldType.cppType_eq_message.mp hType)]
    exact ⟨_, rfl⟩
  case h_2 hType => exact ⟨_, getScalar_ok hSingular hType⟩
  case h_3 =>
    obtain ⟨x, hx⟩ := getProtoNumberField_returns P.ofInt hSingular m
    exact ⟨P.number x, by rw [hx]; rfl⟩

/-- An answer to a request: the text, which is empty for a path that does not end at a
field with one value. -/
def Answers (S : Schema T) (t : T) (path : List (List Char)) (out : List Char) : Prop :=
  out ≠ [] → S.Resolves t path

variable {S : Schema T} {R : Messages T D}

/-- An empty answer is one to every path. -/
theorem answers_empty (t : T) (path : List (List Char)) : Answers S t path [] :=
  fun h => absurd rfl h

/-- The last field is written only where the schema has a use for it. -/
theorem showLast_usable [DecidableEq T] {P : Printer R} {msg last out : List Char}
    {m : Sigma R.Message} (h : showLast S P msg last m = .ok out) : S.Usable m.1 [last] := by
  unfold showLast at h
  split at h
  case h_1 hFind => exact Schema.usable_of_not_found hFind
  case h_2 f hFind =>
    refine (Schema.usable_singleton hFind).mpr ?_
    by_contra hSingular
    rw [hasField, if_neg hSingular] at h
    cases h

/-- A field that the schema has a use for is written. -/
theorem showLast_returns [DecidableEq T] (P : Printer R) (msg : List Char) {last : List Char}
    {m : Sigma R.Message} (h : S.Usable m.1 [last]) :
    ∃ out, showLast S P msg last m = .ok out ∧ Answers S m.1 [last] out := by
  unfold showLast
  split
  case h_1 => exact ⟨[], rfl, answers_empty _ _⟩
  case h_2 f hFind =>
    have hSingular := (Schema.usable_singleton hFind).mp h
    have hResolves := Schema.resolves_singleton hFind hSingular
    rw [hasField, if_pos hSingular]
    cases R.hasField m.2 f with
    | false => exact ⟨[], rfl, answers_empty _ _⟩
    | true =>
      obtain ⟨out, hOut⟩ := showField_returns P hSingular m.2
      exact ⟨_, by rw [hOut]; rfl, fun _ => hResolves⟩

/-- The walk ends at the last name. -/
theorem walk_last {rest : List Char} (hNext : find '.' rest = none) (m : Sigma R.Message) :
    walk S rest m = .ok (some (rest, m)) := by
  rw [walk]
  split
  · rfl
  · simp_all

/-- The walk ends without a value at a name that the message does not have. -/
theorem walk_unknown {rest : List Char} {n : Nat} (hNext : find '.' rest = some n)
    {m : Sigma R.Message} (hFind : S.findFieldByName m.1 (rest.take n) = none) :
    walk S rest m = .ok none := by
  rw [walk]
  split
  · simp_all
  case h_2 next hSome =>
    obtain rfl : next = n := Option.some.inj (hSome.symm.trans hNext)
    rw [hFind]

/-- The walk goes on inside the field of the first name. -/
theorem walk_inner {rest : List Char} {n : Nat} (hNext : find '.' rest = some n)
    {m : Sigma R.Message} {f : FieldDescriptor T}
    (hFind : S.findFieldByName m.1 (rest.take n) = some f) :
    walk S rest m = getMessage m.2 f >>= walk S (rest.drop (n + 1)) := by
  rw [walk]
  split
  · simp_all
  case h_2 next hSome =>
    obtain rfl : next = n := Option.some.inj (hSome.symm.trans hNext)
    rw [hFind]
    cases hSub : getMessage m.2 f <;> simp only [hSub] <;> rfl

section Answer

variable [DecidableEq T] {P : Printer R} {msg : List Char}

/-- The answer is the one of the rest of the path inside the field of the first name. -/
theorem answer_inner {rest : List Char} {n : Nat} (hNext : find '.' rest = some n)
    {m sub : Sigma R.Message} {f : FieldDescriptor T}
    (hFind : S.findFieldByName m.1 (rest.take n) = some f) (hSub : getMessage m.2 f = .ok sub) :
    answer S P msg rest m = answer S P msg (rest.drop (n + 1)) sub := by
  rw [answer, walk_inner hNext hFind, hSub]
  rfl

/-- Every turn of the loop makes the rest of the path shorter. -/
theorem drop_length_lt {rest : List Char} {n : Nat} (hNext : find '.' rest = some n) :
    (rest.drop (n + 1)).length < rest.length := by
  have := find_lt hNext
  rw [List.length_drop]
  omega

/-- By induction along the path: each name is looked up in the message that the names
before it lead to. -/
theorem answer_usable {rest out : List Char} {m : Sigma R.Message}
    (h : answer S P msg rest m = .ok out) : S.Usable m.1 (pathOf rest) := by
  induction hLength : rest.length using Nat.strongRecOn generalizing rest m with
  | _ length ih =>
    cases hNext : find '.' rest with
    | none =>
      rw [answer, walk_last hNext] at h
      rw [pathOf_find_none hNext]
      exact showLast_usable h
    | some n =>
      rw [pathOf_find_some hNext]
      cases hFind : S.findFieldByName m.1 (rest.take n) with
      | none => exact Schema.usable_of_not_found hFind
      | some f =>
        cases hSub : getMessage m.2 f with
        | error e =>
          rw [answer, walk_inner hNext hFind, hSub] at h
          cases h
        | ok sub =>
          rw [answer_inner hNext hFind hSub] at h
          obtain ⟨hSingular, hType⟩ := getMessage_eq_ok hSub
          have hRest := ih _ (hLength ▸ drop_length_lt hNext) h rfl
          exact (Schema.usable_cons hFind (pathOf_ne_nil _)).mpr
            ⟨hSingular, sub.1, hType, hRest⟩

/-- A path that the schema has a use for is answered, whatever the messages hold. -/
theorem answer_returns {rest : List Char} {m : Sigma R.Message}
    (h : S.Usable m.1 (pathOf rest)) :
    ∃ out, answer S P msg rest m = .ok out ∧ Answers S m.1 (pathOf rest) out := by
  induction hLength : rest.length using Nat.strongRecOn generalizing rest m with
  | _ length ih =>
    cases hNext : find '.' rest with
    | none =>
      rw [answer, walk_last hNext, pathOf_find_none hNext]
      rw [pathOf_find_none hNext] at h
      exact showLast_returns P msg h
    | some n =>
      rw [pathOf_find_some hNext] at h ⊢
      cases hFind : S.findFieldByName m.1 (rest.take n) with
      | none =>
        refine ⟨[], ?_, answers_empty _ _⟩
        rw [answer, walk_unknown hNext hFind]
      | some f =>
        obtain ⟨hSingular, u, hType, hUsable⟩ :=
          (Schema.usable_cons hFind (pathOf_ne_nil _)).mp h
        let sub : Sigma R.Message := ⟨u, R.getMessage m.2 f u⟩
        have hSub : getMessage m.2 f = .ok sub := getMessage_ok hSingular hType
        have hRest : S.Usable sub.1 (pathOf (rest.drop (n + 1))) := hUsable
        obtain ⟨out, hOut, hAnswers⟩ := ih _ (hLength ▸ drop_length_lt hNext) hRest rfl
        refine ⟨out, (answer_inner hNext hFind hSub).trans hOut, ?_⟩
        intro hNonempty
        exact (hAnswers hNonempty).cons hFind hSingular hType

end Answer

/-- Of a queue that was not heard nothing is shown. -/
theorem getCurrentVal_of_none {R : Messages MsgType D} {P : Printer R}
    {msgs : List Char → Option (R.Message .logEntry)} {msg : List Char}
    (h : msgs (queueName msg) = none) : getCurrentVal P msgs msg = .ok [] := by
  rw [getCurrentVal, h]

/-- Of a queue that was heard the path is followed in its last message. -/
theorem getCurrentVal_of_some {R : Messages MsgType D} {P : Printer R}
    {msgs : List Char → Option (R.Message .logEntry)} {msg : List Char}
    {entry : R.Message .logEntry} (h : msgs (queueName msg) = some entry) :
    getCurrentVal P msgs msg = answer schema P msg msg ⟨.logEntry, entry⟩ := by
  rw [getCurrentVal, h]

/-- A request comes back with an answer exactly when nothing was received on the queue, or
when the path in the name never arrives at a number or a repeated field before its last
name, nor at a repeated field with its last. The answer is empty unless the path ends at a
singular field. -/
theorem getCurrentVal_returns_iff {R : Messages MsgType D} (P : Printer R)
    (msgs : List Char → Option (R.Message .logEntry)) (msg : List Char) :
    (∃ out, getCurrentVal P msgs msg = .ok out ∧
      (out ≠ [] → schema.Resolves .logEntry (pathOf msg))) ↔
    msgs (queueName msg) = none ∨ schema.Usable .logEntry (pathOf msg) := by
  cases hQueue : msgs (queueName msg) with
  | none =>
    rw [getCurrentVal_of_none hQueue]
    exact ⟨fun _ => Or.inl rfl, fun _ => ⟨[], rfl, fun h => absurd rfl h⟩⟩
  | some entry =>
    rw [getCurrentVal_of_some hQueue]
    constructor
    · rintro ⟨out, hOut, -⟩
      exact Or.inr (answer_usable hOut)
    · rintro (hNone | hUsable)
      · cases hNone
      · exact answer_returns hUsable

/-- Messages that have every field, with the elements of `M` as messages of every type. -/
def allSet (M : Type) : Messages MsgType Int where
  Message := fun _ => M
  hasField := fun _ _ => true
  getMessage := fun m _ _ => m
  getString := fun _ _ => []
  getDouble := fun _ _ => 0
  getFloat := fun _ _ => 0
  getBool := fun _ _ => true
  getEnumValue := fun _ _ => 0
  getInt32 := fun _ _ => 0
  getInt64 := fun _ _ => 0
  getUInt32 := fun _ _ => 0
  getUInt64 := fun _ _ => 0

/-- `getMessage` on a `float`, and on a repeated field: two names that bring the server
down once there are messages on these queues. -/
theorem getCurrentVal_aborts :
    getCurrentVal (R := allSet Unit) ⟨fun _ => [], fun _ => ['0'], id⟩ (fun _ => some ())
        "wind.x.y".toList = .error .wrongType ∧
      getCurrentVal (R := allSet Unit) ⟨fun _ => [], fun _ => ['0'], id⟩ (fun _ => some ())
        "waypoints.points".toList = .error .notSingular := by
  constructor
  · have hWind : schema.findFieldByName .logEntry ("wind.x.y".toList.take 4) =
        some (optional (.message .vector3f) "wind") := by decide
    have hX : schema.findFieldByName .vector3f ("x.y".toList.take 1) =
        some (optional .float "x") := by decide
    rw [getCurrentVal_of_some rfl, answer_inner (n := 4) (by decide) hWind
      (getMessage_ok (by decide) rfl), answer, walk_inner (n := 1) (by decide) hX]
    rfl
  · have hWaypoints : schema.findFieldByName .logEntry ("waypoints.points".toList.take 9) =
        some (optional (.message .waypointList) "waypoints") := by decide
    have hPoints : schema.findFieldByName .waypointList ("waypoints.points".toList.drop 10) =
        some (repeated (.message .waypoint) "points") := by decide
    rw [getCurrentVal_of_some rfl, answer_inner (n := 9) (by decide) hWaypoints
      (getMessage_ok (by decide) rfl), answer, walk_last (by decide)]
    show showLast schema _ _ ("waypoints.points".toList.drop 10) _ = _
    rw [showLast, hPoints]
    rfl

/-- Every name without a dot is answered: all members of a `LogEntry` are singular. -/
theorem getCurrentVal_queue {R : Messages MsgType D} (P : Printer R)
    (msgs : List Char → Option (R.Message .logEntry)) {msg : List Char} (hMsg : '.' ∉ msg) :
    ∃ out, getCurrentVal P msgs msg = .ok out := by
  cases hQueue : msgs (queueName msg) with
  | none => exact ⟨[], getCurrentVal_of_none hQueue⟩
  | some entry =>
    have hUsable : schema.Usable .logEntry (pathOf msg) := by
      rw [pathOf_of_not_mem hMsg]
      cases hFind : schema.findFieldByName .logEntry msg with
      | none => exact Schema.usable_of_not_found hFind
      | some f =>
        have hField : f ∈ MsgType.fields .logEntry := List.mem_of_find?_eq_some hFind
        exact (Schema.usable_singleton hFind).mpr (logEntry_members f hField).1
    have hAnswer : ∃ out, answer schema P msg msg ⟨.logEntry, entry⟩ = .ok out ∧
        Answers schema .logEntry (pathOf msg) out := answer_returns hUsable
    obtain ⟨out, hOut, -⟩ := hAnswer
    exact ⟨out, (getCurrentVal_of_some hQueue).trans hOut⟩

end Sailbot.Ui
