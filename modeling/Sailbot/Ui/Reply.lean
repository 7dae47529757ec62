import Sailbot.Ui.Requests

/-!
# The reply

What `WebSocketServer::ProcessSocket` and `GetCurrentVal` (`ui/server.cc`) write back to the page.
The name of a field leads to a value, and the value is written out behind the name; a number as a
stream writes it, which is not JSON where the number is not finite.

* `getCurrentVal_eq`  — what is written of a field is the value that its name leads to.
* `jsonText_pageText_iff` — a text of members is JSON, if and only if all values in it are.
* `reply_json_iff`    — the reply to any text of the page, and when a page can read it.
-/

namespace Sailbot.Ui

open Lib

variable {T D : Type}

-- ---------------------------------------------------------------------------
-- What a name leads to
-- ---------------------------------------------------------------------------

/-- A value that the server shows. -/
inductive Shown (R : Messages T D)
  | message (t : T) (m : R.Message t)
  | number (x : D)
  | text (s : List Char)

def Shown.print {R : Messages T D} (P : Printer R) : Shown R → List Char
  | .message _ m => P.toJson m
  | .number x => P.number x
  | .text s => s

/-- The value of a field. -/
def shownField [DecidableEq T] {R : Messages T D} (ofInt : Int → D) {t : T} (m : R.Message t)
    (f : FieldDescriptor T) : Option (Shown R) :=
  match f.type.cppType with
  | .message u => some (.message u (R.getMessage m f u))
  | .string => some (.text (R.getString m f))
  | _ => (getProtoNumberField ofInt f m).toOption.map .number

/-- The value that a path leads to from a message. -/
def shownAt [DecidableEq T] (S : Schema T) {R : Messages T D} (ofInt : Int → D) :
    List (List Char) → Sigma R.Message → Option (Shown R)
  | [], _ => none
  | [last], m =>
    match S.findFieldByName m.1 last with
    | none => none
    | some f => if R.hasField m.2 f then shownField ofInt m.2 f else none
  | name :: next :: names, m =>
    match S.findFieldByName m.1 name with
    | none => none
    | some f =>
      match f.type with
      | .message u => shownAt S ofInt (next :: names) ⟨u, R.getMessage m.2 f u⟩
      | _ => none

/-- What the server has of a field. -/
def current {R : Messages MsgType D} (ofInt : Int → D)
    (msgs : List Char → Option (R.Message .logEntry)) (name : List Char) : Option (Shown R) :=
  (msgs (queueName name)).bind fun entry => shownAt schema ofInt (pathOf name) ⟨.logEntry, entry⟩

/-- What is written of a value. -/
def written {R : Messages T D} (P : Printer R) (name : List Char) (v : Option (Shown R)) :
    List Char :=
  v.elim [] fun v => jsonMember name (v.print P) ++ [',']

section Answer

variable [DecidableEq T] {S : Schema T} {R : Messages T D} {P : Printer R} {msg rest : List Char}

/-- A field that is not repeated is shown as the text of its value. -/
theorem showField_eq {t : T} {f : FieldDescriptor T} (hSingular : f.Singular) (m : R.Message t) :
    ∃ v, shownField P.ofInt m f = some v ∧ showField P m f = .ok (v.print P) := by
  obtain ⟨x, hx⟩ := getProtoNumberField_returns P.ofInt hSingular m
  cases hType : f.type.cppType with
  | message u =>
    refine ⟨.message u (R.getMessage m f u), by rw [shownField, hType], ?_⟩
    rw [showField, hType]
    dsimp only
    rw [getMessage_ok hSingular (FieldType.cppType_eq_message.mp hType)]
    rfl
  | string =>
    refine ⟨.text (R.getString m f), by rw [shownField, hType], ?_⟩
    rw [showField, hType]
    exact getScalar_ok hSingular hType
  | _ =>
    refine ⟨.number x, ?_, ?_⟩
    · rw [shownField, hType, hx]
      rfl
    · rw [showField, hType, hx]
      rfl

/-- The last field of a path writes the value that is shown at it. -/
theorem showLast_eq {last : List Char} {m : Sigma R.Message} (h : S.Usable m.1 [last]) :
    showLast S P msg last m = .ok (written P msg (shownAt S P.ofInt [last] m)) := by
  unfold showLast shownAt
  cases hFind : S.findFieldByName m.1 last with
  | none => rfl
  | some f =>
    have hSingular := (Schema.usable_singleton hFind).mp h
    dsimp only
    rw [hasField, if_pos hSingular]
    cases R.hasField m.2 f with
    | false => rfl
    | true =>
      obtain ⟨v, hv, hShow⟩ := showField_eq (P := P) hSingular m.2
      dsimp only
      rw [if_pos rfl, hv, hShow]
      simp [written, jsonMember, jsonString, Functor.map, Except.map]

/-- By induction along the path, as `answer_returns`. -/
theorem answer_eq {m : Sigma R.Message} (h : S.Usable m.1 (pathOf rest)) :
    answer S P msg rest m = .ok (written P msg (shownAt S P.ofInt (pathOf rest) m)) := by
  induction hLength : rest.length using Nat.strongRecOn generalizing rest m with
  | _ length ih =>
    cases hNext : find '.' rest with
    | none =>
      rw [pathOf_find_none hNext] at h ⊢
      rw [answer, walk_last hNext]
      exact showLast_eq h
    | some n =>
      rw [pathOf_find_some hNext] at h ⊢
      obtain ⟨next, names, hPath⟩ := List.exists_cons_of_ne_nil (pathOf_ne_nil (rest.drop (n + 1)))
      cases hFind : S.findFieldByName m.1 (rest.take n) with
      | none =>
        rw [answer, walk_unknown hNext hFind, hPath, shownAt, hFind]
        rfl
      | some f =>
        obtain ⟨hSingular, u, hType, hUsable⟩ :=
          (Schema.usable_cons hFind (pathOf_ne_nil _)).mp h
        let sub : Sigma R.Message := ⟨u, R.getMessage m.2 f u⟩
        have hSub : getMessage m.2 f = .ok sub := getMessage_ok hSingular hType
        have hRest : S.Usable sub.1 (pathOf (rest.drop (n + 1))) := hUsable
        rw [answer_inner hNext hFind hSub, ih _ (hLength ▸ drop_length_lt hNext) hRest rfl, hPath,
          shownAt, hFind]
        dsimp only
        rw [hType]

end Answer

/-- What is written of a field is what the server has of it. -/
theorem getCurrentVal_eq {R : Messages MsgType D} {P : Printer R}
    {msgs : List Char → Option (R.Message .logEntry)} {name : List Char}
    (h : schema.Usable .logEntry (pathOf name)) :
    getCurrentVal P msgs name = .ok (written P name (current P.ofInt msgs name)) := by
  unfold current
  cases hQueue : msgs (queueName name) with
  | none => exact getCurrentVal_of_none hQueue
  | some entry =>
    rw [getCurrentVal_of_some hQueue, Option.bind_some]
    exact answer_eq h

-- ---------------------------------------------------------------------------
-- Texts of members
-- ---------------------------------------------------------------------------

/-- A member is found in front of what follows it. -/
theorem member_inj {n n' v v' rest rest' : List Char} (hn : '"' ∉ n) (hn' : '"' ∉ n')
    (hv : Delimited v) (hv' : Delimited v') (hRest : rest = [] ∨ ∃ more, rest = ',' :: more)
    (hRest' : rest' = [] ∨ ∃ more, rest' = ',' :: more)
    (h : jsonMember n v ++ rest = jsonMember n' v' ++ rest') : n = n' ∧ v = v' ∧ rest = rest' := by
  have hQuote : n ++ '"' :: ':' :: (v ++ rest) = n' ++ '"' :: ':' :: (v' ++ rest') := by
    simpa [jsonMember, jsonString] using h
  have hLength : n.length = n'.length := by
    have hFind := congrArg (find '"') hQuote
    rw [find_append hn, find_append hn'] at hFind
    exact Option.some.inj hFind
  obtain ⟨rfl, hValue⟩ := List.append_inj hQuote hLength
  simp only [List.cons.injEq, true_and] at hValue
  obtain ⟨i, hScan, hEnd⟩ := hv.scan hRest
  obtain ⟨i', hScan', hEnd'⟩ := hv'.scan hRest'
  rw [← hValue, hScan] at hScan'
  obtain rfl := (Prod.mk.inj hScan').1
  rw [← hValue, hEnd] at hEnd'
  obtain ⟨rfl, rfl⟩ := List.append_inj hValue hEnd'
  exact ⟨rfl, rfl, rfl⟩

variable {ps qs : List (List Char × List Char)}

/-- What follows the first member. -/
def afterMember (ps : List (List Char × List Char)) : List Char :=
  if ps = [] then [] else ',' :: pageMembers ps false

/-- The members of a page's request without a comma at the end. -/
theorem pageMembers_false_cons (p : List Char × List Char) (ps : List (List Char × List Char)) :
    pageMembers (p :: ps) false = jsonMember p.1 p.2 ++ afterMember ps := by
  cases ps <;> simp [pageMembers, afterMember]

/-- After a member there is nothing or a comma. -/
theorem afterMember_cases (ps : List (List Char × List Char)) :
    afterMember ps = [] ∨ ∃ more, afterMember ps = ',' :: more := by
  unfold afterMember
  split
  · exact .inl rfl
  · exact .inr ⟨_, rfl⟩

/-- A text has the members of one list only. -/
theorem pageMembers_inj (hNames : ∀ p ∈ ps, '"' ∉ p.1) (hValues : ∀ p ∈ ps, Delimited p.2)
    (hNames' : ∀ p ∈ qs, '"' ∉ p.1) (hValues' : ∀ p ∈ qs, Delimited p.2)
    (h : pageMembers ps false = pageMembers qs false) : ps = qs := by
  induction ps generalizing qs with
  | nil =>
    cases qs with
    | nil => rfl
    | cons q qs =>
      rw [pageMembers_false_cons] at h
      cases h
  | cons p ps ih =>
    cases qs with
    | nil =>
      rw [pageMembers_false_cons] at h
      cases h
    | cons q qs =>
      rw [pageMembers_false_cons, pageMembers_false_cons] at h
      obtain ⟨hp, hNames⟩ := List.forall_mem_cons.mp hNames
      obtain ⟨hq, hNames'⟩ := List.forall_mem_cons.mp hNames'
      obtain ⟨hpv, hValues⟩ := List.forall_mem_cons.mp hValues
      obtain ⟨hqv, hValues'⟩ := List.forall_mem_cons.mp hValues'
      obtain ⟨hName, hValue, hAfter⟩ :=
        member_inj hp hq hpv hqv (afterMember_cases ps) (afterMember_cases qs) h
      have hMembers : pageMembers ps false = pageMembers qs false := by
        unfold afterMember at hAfter
        split at hAfter <;> split at hAfter
        case isTrue.isTrue hps hqs => rw [hps, hqs]
        case isFalse.isFalse => exact (List.cons.inj hAfter).2
        all_goals cases hAfter
      rw [Prod.ext hName hValue, ih hNames hValues hNames' hValues' hMembers]

/-- A text of members is JSON, if and only if all values in it are. -/
theorem jsonText_pageText_iff (hNames : ∀ p ∈ ps, Unescaped p.1)
    (hValues : ∀ p ∈ ps, Delimited p.2) :
    JsonText (pageText ps false) ↔ ∀ p ∈ ps, JsonText p.2 := by
  have hText : ∀ ms : List (List Char × List Char), pageText ms false =
      '{' :: (List.intercalate [','] (ms.map fun m => jsonMember m.1 m.2) ++ ['}']) := by
    intro ms
    simp [pageText, pageMembers]
  constructor
  · intro h
    generalize hEq : pageText ps false = text at h
    cases h with
    | object ms hUnescaped hJson =>
      have hMembers : pageMembers ps false = pageMembers ms false := by
        rw [← hText, pageText, pageText] at hEq
        exact List.append_cancel_right (List.cons.inj hEq).2
      rw [pageMembers_inj (fun p hp => Unescaped.no_quote (hNames p hp)) hValues
        (fun m hm => Unescaped.no_quote (hUnescaped m hm))
        (fun m hm => Delimited.jsonText (hJson m hm)) hMembers]
      exact hJson
    | number t h =>
      have hPlain := h.plain '{' (hEq ▸ List.mem_cons_self)
      exact absurd rfl hPlain.2.2.2.2.1
    | _ => cases hEq
  · intro h
    rw [hText]
    exact .object ps hNames h

/-- What is written of every value ends with a comma, and the last one is overwritten. -/
theorem flatMap_members (p : List Char × List Char) (ps : List (List Char × List Char)) :
    (p :: ps).flatMap (fun m => jsonMember m.1 m.2 ++ [',']) =
      pageMembers (p :: ps) false ++ [','] := by
  induction ps generalizing p with
  | nil => simp [pageMembers]
  | cons q ps ih =>
    rw [List.flatMap_cons, ih, pageMembers_false_cons p, afterMember, if_neg (List.cons_ne_nil _ _)]
    simp

-- ---------------------------------------------------------------------------
-- The reply
-- ---------------------------------------------------------------------------

/-- What a stream writes of a number that is not finite. -/
def nonNumbers : List (List Char) := ["nan".toList, "-nan".toList, "inf".toList, "-inf".toList]

/-- What the functions that print are documented to write. -/
structure Prints {R : Messages T D} (P : Printer R) (Finite : D → Prop) : Prop where
  json   : ∀ {t : T} (m : R.Message t), JsonText (P.toJson m)
  finite : ∀ x, Finite x → JsonNumber (P.number x)
  other  : ∀ x, ¬ Finite x → P.number x ∈ nonNumbers

/-- What is written of a number that is not finite, has an end and is not JSON. -/
theorem not_jsonText_of_nonNumber {t : List Char} (h : t ∈ nonNumbers) :
    Delimited t ∧ ¬ JsonText t := by
  have hEq : nonNumbers = [['n', 'a', 'n'], ['-', 'n', 'a', 'n'], ['i', 'n', 'f'],
      ['-', 'i', 'n', 'f']] := rfl
  have hPlain : ∀ u ∈ nonNumbers, ∀ c ∈ u, Plain c := by
    rw [hEq]
    decide
  have hDigit : ∀ u ∈ nonNumbers, ∀ c ∈ u, c.isDigit = false := by
    simp [nonNumbers]
  have hWord : ∀ u ∈ nonNumbers, u ≠ [] ∧ u ≠ ['n', 'u', 'l', 'l'] ∧ u ≠ ['t', 'r', 'u', 'e'] ∧
      u ≠ ['f', 'a', 'l', 's', 'e'] := by
    rw [hEq]
    decide
  obtain ⟨hNe, hNull, hTrue, hFalse⟩ := hWord t h
  have hChars := hPlain t h
  refine ⟨.plain hChars hNe, fun hJson => ?_⟩
  cases hJson with
  | null => exact hNull rfl
  | true => exact hTrue rfl
  | false => exact hFalse rfl
  | number _ hNumber =>
    obtain ⟨c, hc, hIs⟩ := hNumber.exists_digit
    exact absurd (hDigit t h c hc) (by rw [hIs]; decide)
  | string s _ => exact (hChars '"' List.mem_cons_self).1 rfl
  | array ts _ => exact (hChars '[' List.mem_cons_self).2.2.1 rfl
  | object ms _ _ => exact (hChars '{' List.mem_cons_self).2.2.2.2.1 rfl

/-- No message has a field with a text. -/
theorem schema_no_string : ∀ t, ∀ f ∈ MsgType.fields t, f.type.cppType ≠ .string := by
  intro t
  cases t <;> decide

/-- A value that is not a number that is not finite. -/
def Shown.Readable {R : Messages T D} (Finite : D → Prop) (v : Shown R) : Prop :=
  ∀ x, v = .number x → Finite x

section Reply

variable {R : Messages MsgType D}

/-- No field of the schema is a text. -/
theorem shownAt_ne_text {ofInt : Int → D} (path : List (List Char)) (m : Sigma R.Message)
    (s : List Char) : shownAt schema ofInt path m ≠ some (.text s) := by
  have hField : ∀ {t : MsgType} (m : R.Message t) (f : FieldDescriptor MsgType),
      f ∈ MsgType.fields t → shownField ofInt m f ≠ some (.text s) := by
    intro t m f hf
    have hType := schema_no_string t f hf
    unfold shownField
    split
    · simp
    case h_2 hString => exact absurd hString hType
    · simp
  fun_induction shownAt schema ofInt path m with
  | case3 last m f hFind => exact hField m.2 f (List.mem_of_find?_eq_some hFind)
  | case6 name next names m f hFind u hType ih => exact ih
  | _ => simp

/-- A value that is shown is a JSON text or one of the words that are none. -/
theorem current_print {P : Printer R} {Finite : D → Prop} (hPrints : Prints P Finite)
    {msgs : List Char → Option (R.Message .logEntry)} {name : List Char} {v : Shown R}
    (h : current P.ofInt msgs name = some v) :
    v.Readable Finite ∧ JsonText (v.print P) ∨
      ¬ v.Readable Finite ∧ v.print P ∈ nonNumbers := by
  cases v with
  | message t m =>
    refine .inl ⟨fun x hx => ?_, hPrints.json m⟩
    cases hx
  | number x =>
    by_cases hFinite : Finite x
    · exact .inl ⟨fun y hy => Shown.number.inj hy ▸ hFinite, .number _ (hPrints.finite x hFinite)⟩
    · exact .inr ⟨fun hReadable => hFinite (hReadable x rfl), hPrints.other x hFinite⟩
  | text s =>
    obtain ⟨entry, -, hAt⟩ := Option.bind_eq_some_iff.mp h
    exact absurd hAt (shownAt_ne_text _ _ s)

/-- The text of a value is JSON, if and only if the value is readable. -/
theorem current_print_iff {P : Printer R} {Finite : D → Prop} (hPrints : Prints P Finite)
    {msgs : List Char → Option (R.Message .logEntry)} {name : List Char} {v : Shown R}
    (h : current P.ofInt msgs name = some v) :
    Delimited (v.print P) ∧ (JsonText (v.print P) ↔ v.Readable Finite) := by
  rcases current_print hPrints h with ⟨hReadable, hJson⟩ | ⟨hNot, hWord⟩
  · exact ⟨.jsonText hJson, fun _ => hReadable, fun _ => hJson⟩
  · obtain ⟨hDelimited, hNotJson⟩ := not_jsonText_of_nonNumber hWord
    exact ⟨hDelimited, fun hJson => absurd hJson hNotJson, fun hIs => absurd hIs hNot⟩

/-- The member of the reply to one request. -/
def answerTo (P : Printer R) (msgs : List Char → Option (R.Message .logEntry))
    (p : List Char × List Char) : Option (List Char × List Char) :=
  if p.2 = "null".toList then (current P.ofInt msgs p.1).map fun v => (p.1, v.print P) else none

/-- The members of the reply: what the server has of the fields that are asked for. -/
def answers (P : Printer R) (msgs : List Char → Option (R.Message .logEntry))
    (pairs : List (List Char × List Char)) : List (List Char × List Char) :=
  pairs.filterMap (answerTo P msgs)

variable {P : Page R} {undef : Nat → UInt8} {s : Server R} {pairs : List (List Char × List Char)}

/-- A request is answered where it asks and something is shown. -/
theorem answerTo_eq_some {p q : List Char × List Char} :
    answerTo P.toPrinter s.msgs q = some p ↔ q.2 = "null".toList ∧
      ∃ v, current P.ofInt s.msgs q.1 = some v ∧ (q.1, v.print P.toPrinter) = p := by
  unfold answerTo
  rw [Option.ite_none_right_eq_some, Option.map_eq_some_iff]

/-- The answers are those of the requests that ask for something that is shown. -/
theorem mem_answers {p : List Char × List Char} :
    p ∈ answers P.toPrinter s.msgs pairs ↔ ∃ q ∈ pairs, q.2 = "null".toList ∧
      ∃ v, current P.ofInt s.msgs q.1 = some v ∧ (q.1, v.print P.toPrinter) = p := by
  unfold answers
  rw [List.mem_filterMap]
  exact exists_congr fun q => and_congr_right fun _ => answerTo_eq_some

/-- What is added to the reply. -/
def replied (P : Printer R) (msgs : List Char → Option (R.Message .logEntry))
    (pairs : List (List Char × List Char)) : List Char :=
  (answers P msgs pairs).flatMap fun m => jsonMember m.1 m.2 ++ [',']

/-- The answers of a list are those of its first request and of the others. -/
theorem replied_cons (p : List Char × List Char) (pairs : List (List Char × List Char)) :
    replied P.toPrinter s.msgs (p :: pairs) =
      replied P.toPrinter s.msgs [p] ++ replied P.toPrinter s.msgs pairs := by
  unfold replied answers
  rw [← List.flatMap_append, ← List.filterMap_append]
  rfl

/-- One request, that the server survives. -/
theorem handle_eq (undef : Nat → UInt8) (s : Server R) {p : List Char × List Char}
    (h : Fine P p) :
    ∃ s', handle P undef s p.1 p.2 = .ok (s', replied P.toPrinter s.msgs [p]) ∧
      s'.msgs = s.msgs ∧ s'.sent = s.sent ++ puts P p := by
  by_cases hVal : p.2 = "null".toList
  · have hUsable : schema.Usable .logEntry (pathOf p.1) := by rwa [Fine, if_pos hVal] at h
    have hReplied : replied P.toPrinter s.msgs [p] =
        written P.toPrinter p.1 (current P.ofInt s.msgs p.1) := by
      unfold replied answers
      rw [List.filterMap_cons, answerTo, if_pos hVal]
      cases current P.ofInt s.msgs p.1 <;> simp [written]
    refine ⟨s, ?_, rfl, by rw [puts, if_pos hVal, List.append_nil]⟩
    rw [handle, if_pos hVal, getCurrentVal_eq hUsable, hReplied]
  · rw [Fine, if_neg hVal] at h
    obtain ⟨s', hSet, hMsgs, hSent⟩ := setValue_of_fits undef s h
    have hReplied : replied P.toPrinter s.msgs [p] = [] := by
      unfold replied answers
      rw [List.filterMap_cons, answerTo, if_neg hVal]
      rfl
    refine ⟨s', ?_, hMsgs, by rw [puts, if_neg hVal, hSent]⟩
    rw [handle_set hVal, hSet, hReplied]
    rfl

/-- By induction over the members, as `splitLoop_members`. -/
theorem serve_members (undef : Nat → UInt8) (s : Server R) (trailing : Bool)
    (hNames : ∀ p ∈ pairs, '"' ∉ p.1 ∧ ':' ∉ p.1) (hValues : ∀ p ∈ pairs, JsonText p.2)
    (hFine : ∀ p ∈ pairs, Fine P p) {sep : List Char} (hSep : sep = [] ∨ sep = [','])
    (out : List Char) :
    ∃ s', serve P undef s (sep ++ pageMembers pairs trailing) out =
        .ok (s', some (out ++ replied P.toPrinter s.msgs pairs)) ∧
      s'.msgs = s.msgs ∧ s'.sent = s.sent ++ pairs.flatMap (puts P) := by
  induction pairs generalizing s sep out with
  | nil =>
    have hDone : nextRequest (sep ++ pageMembers [] trailing) = .done := by
      refine nextRequest_done ?_
      rcases hSep with rfl | rfl <;> cases trailing <;> decide
    refine ⟨s, ?_, rfl, by simp⟩
    rw [serve]
    split
    · simp [replied, answers]
    · simp_all
    · simp_all
  | cons p pairs ih =>
    obtain ⟨hName, hNames⟩ := List.forall_mem_cons.mp hNames
    obtain ⟨hValue, hValues⟩ := List.forall_mem_cons.mp hValues
    obtain ⟨hFirst, hFine⟩ := List.forall_mem_cons.mp hFine
    have hFree : '"' ∉ sep ∧ ':' ∉ sep := by rcases hSep with rfl | rfl <;> decide
    obtain ⟨sep', hSep', hText, hRest⟩ := pageMembers_cons p pairs trailing
    obtain ⟨s₁, hHandle, hMsgs₁, hSent₁⟩ := handle_eq undef s hFirst
    obtain ⟨s₂, hServe, hMsgs₂, hSent₂⟩ :=
      ih s₁ hNames hValues hFine hSep' (out ++ replied P.toPrinter s.msgs [p])
    refine ⟨s₂, ?_, hMsgs₂.trans hMsgs₁, ?_⟩
    · rw [hText, serve_request (nextRequest_member hFree hName (Delimited.jsonText hValue) hRest),
        hHandle]
      dsimp only
      rw [hServe, hMsgs₁, List.append_assoc, ← replied_cons]
    · rw [hSent₂, hSent₁, List.flatMap_cons, List.append_assoc]

/-- The reply to a text of the page. -/
def replyText (P : Printer R) (msgs : List Char → Option (R.Message .logEntry)) (time : List Char)
    (pairs : List (List Char × List Char)) : List Char :=
  pageText (("time".toList, time) :: answers P msgs pairs) false

/-- A text of a page is answered with the time and the answers of its requests. -/
theorem processSocket_pageText (undef : Nat → UInt8) (s : Server R) (time : List Char)
    (trailing : Bool) (hNames : ∀ p ∈ pairs, '"' ∉ p.1 ∧ ':' ∉ p.1)
    (hValues : ∀ p ∈ pairs, JsonText p.2) (hFine : ∀ p ∈ pairs, Fine P p) :
    ∃ s', processSocket P undef false time s (pageText pairs trailing) =
        .ok (s', some (replyText P.toPrinter s.msgs time pairs)) ∧
      s'.msgs = s.msgs ∧ s'.sent = s.sent ++ pairs.flatMap (puts P) := by
  obtain ⟨s', hServe, hMsgs, hSent⟩ := serve_members undef s trailing hNames hValues hFine
    (.inl rfl) ("\x7b\"time\":".toList ++ time ++ [','])
  refine ⟨s', ?_, hMsgs, hSent⟩
  have hOut : ("\x7b\"time\":".toList ++ time ++ [',']) ++ replied P.toPrinter s.msgs pairs =
      ('{' :: pageMembers (("time".toList, time) :: answers P.toPrinter s.msgs pairs) false) ++
        [','] := by
    rw [List.cons_append, ← flatMap_members, List.flatMap_cons]
    simp [jsonMember, jsonString, replied]
  rw [processSocket, if_neg Bool.false_ne_true, stripBraces_pageText]
  dsimp only
  rw [← List.nil_append (pageMembers pairs trailing), hServe, hOut]
  show Except.ok (s', some (List.dropLast (_ ++ [',']) ++ ['}'])) = _
  rw [List.dropLast_concat]
  rfl

/-- The reply is JSON, if and only if every value in it is readable. -/
theorem replyText_json_iff {Finite : D → Prop} (hPrints : Prints P.toPrinter Finite)
    {time : List Char} (hTime : JsonNumber time) (hNames : ∀ p ∈ pairs, Unescaped p.1) :
    JsonText (replyText P.toPrinter s.msgs time pairs) ↔
      ∀ p ∈ pairs, p.2 = "null".toList → ∀ v, current P.ofInt s.msgs p.1 = some v →
        v.Readable Finite := by
  have hTimeText : JsonText time := .number _ hTime
  have hTimeName : Unescaped "time".toList := by decide
  rw [replyText, jsonText_pageText_iff]
  · rw [List.forall_mem_cons]
    constructor
    · rintro ⟨-, hAll⟩ p hp hNull v hv
      have hJson := hAll _ (mem_answers.mpr ⟨p, hp, hNull, v, hv, rfl⟩)
      exact (current_print_iff hPrints hv).2.mp hJson
    · intro hAll
      refine ⟨hTimeText, fun q hq => ?_⟩
      obtain ⟨p, hp, hNull, v, hv, rfl⟩ := mem_answers.mp hq
      exact (current_print_iff hPrints hv).2.mpr (hAll p hp hNull v hv)
  · refine List.forall_mem_cons.mpr ⟨hTimeName, fun q hq => ?_⟩
    obtain ⟨p, hp, -, v, -, rfl⟩ := mem_answers.mp hq
    exact hNames p hp
  · refine List.forall_mem_cons.mpr ⟨.jsonText hTimeText, fun q hq => ?_⟩
    obtain ⟨p, -, -, v, hv, rfl⟩ := mem_answers.mp hq
    exact (current_print_iff hPrints hv).1

/-- **The reply.** A text of the page in which every request is fine is served, and the reply is
the time and what the server has of the fields that were asked for, in their order. It is JSON, if
and only if none of them is a number that is not finite. -/
theorem reply_json_iff {Finite : D → Prop} (hPrints : Prints P.toPrinter Finite)
    (undef : Nat → UInt8) (s : Server R) {time : List Char} (hTime : JsonNumber time)
    (trailing : Bool) (hNames : ∀ p ∈ pairs, Unescaped p.1 ∧ ':' ∉ p.1)
    (hValues : ∀ p ∈ pairs, JsonText p.2) (hFine : ∀ p ∈ pairs, Fine P p) :
    ∃ s', processSocket P undef false time s (pageText pairs trailing) =
        .ok (s', some (replyText P.toPrinter s.msgs time pairs)) ∧
      s'.msgs = s.msgs ∧ s'.sent = s.sent ++ pairs.flatMap (puts P) ∧
      (JsonText (replyText P.toPrinter s.msgs time pairs) ↔
        ∀ p ∈ pairs, p.2 = "null".toList → ∀ v, current P.ofInt s.msgs p.1 = some v →
          v.Readable Finite) := by
  obtain ⟨s', hServe, hMsgs, hSent⟩ := processSocket_pageText undef s time trailing
    (fun p hp => ⟨Unescaped.no_quote (hNames p hp).1, (hNames p hp).2⟩) hValues hFine
  exact ⟨s', hServe, hMsgs, hSent, replyText_json_iff hPrints hTime fun p hp => (hNames p hp).1⟩

end Reply

/-- Messages in which every number is one, or is not a number. -/
def oneOrNaN : Messages MsgType Bool where
  Message := fun _ => Bool
  hasField := fun _ _ => true
  getMessage := fun m _ _ => m
  getString := fun _ _ => []
  getDouble := fun m _ => m
  getFloat := fun m _ => m
  getBool := fun _ _ => true
  getEnumValue := fun _ _ => 1
  getInt32 := fun _ _ => 1
  getInt64 := fun _ _ => 1
  getUInt32 := fun _ _ => 1
  getUInt64 := fun _ _ => 1

def oneOrNaNPage : Page oneOrNaN where
  toJson := fun _ => "\x7b\x7d".toList
  number := fun x => if x then ['1'] else "nan".toList
  ofInt := fun _ => true
  jsonToMessage := fun _ _ => none
  entry := fun _ _ m => m
  serialize := fun _ => []

/-- A printer for the number one and for NaN. -/
theorem oneOrNaN_prints : Prints oneOrNaNPage.toPrinter (· = true) where
  json := fun _ => .object [] (by simp) (by simp)
  finite := fun x hx => by
    subst hx
    exact ⟨[], ['1'], [], [], rfl, .inl rfl, .inr ⟨by decide, by decide⟩, .inl rfl, .inl rfl⟩
  other := fun x hx => by
    obtain rfl := Bool.eq_false_iff.mpr hx
    exact List.mem_cons_self

/-- The server after its constructor, with queues that nobody has used. -/
def freshServer : Server oneOrNaN := Server.new oneOrNaN fun _ => ⟨.new 10 1024 fun _ => [], rfl⟩

/-- A server that has nothing but numbers that are none. -/
def nanServer : Server oneOrNaN := { freshServer with msgs := fun _ => some false }

/-- The heel command is a field of an entry of the log. -/
theorem find_heel_cmd : schema.findFieldByName .logEntry "heel_cmd".toList =
    some (optional (.message .heelCmd) "heel_cmd") := by
  decide

/-- The heel is a field of the heel command. -/
theorem find_heel :
    schema.findFieldByName .heelCmd "heel".toList = some (optional .float "heel") := by
  decide

/-- The path of the heel has two names. -/
theorem pathOf_heel :
    pathOf "heel_cmd.heel".toList = ["heel_cmd".toList, "heel".toList] := by
  decide

/-- The schema has a use for the path of the heel. -/
theorem heel_usable : schema.Usable .logEntry (pathOf "heel_cmd.heel".toList) := by
  rw [pathOf_heel, Schema.usable_cons find_heel_cmd (List.cons_ne_nil _ _)]
  exact ⟨by decide, .heelCmd, rfl, (Schema.usable_singleton find_heel).mpr (by decide)⟩

/-- The goal for the heel is not a number: nobody can read the reply. -/
theorem reply_json_iff_nan :
    ∃ s', processSocket oneOrNaNPage (fun _ => 0) false "1.5".toList nanServer
        "\x7b\"heel_cmd.heel\":null,\x7d".toList =
          .ok (s', some "\x7b\"time\":1.5,\"heel_cmd.heel\":nan\x7d".toList) ∧
      ¬ JsonText "\x7b\"time\":1.5,\"heel_cmd.heel\":nan\x7d".toList := by
  have hCurrent : current oneOrNaNPage.ofInt nanServer.msgs "heel_cmd.heel".toList =
      some (.number false) := by
    rw [current, pathOf_heel]
    refine Option.bind_eq_some_iff.mpr ⟨false, rfl, ?_⟩
    simp only [shownAt, find_heel_cmd, optional, find_heel]
    rfl
  have hTime : JsonNumber "1.5".toList :=
    ⟨[], ['1'], ['.', '5'], [], rfl, .inl rfl, .inr ⟨by decide, by decide⟩,
      .inr ⟨['5'], by decide, rfl⟩, .inl rfl⟩
  have hNames : ∀ p ∈ [("heel_cmd.heel".toList, "null".toList)], Unescaped p.1 ∧ ':' ∉ p.1 :=
    List.forall_mem_singleton.mpr (by decide)
  obtain ⟨s', hServe, -, -, hJson⟩ := reply_json_iff oneOrNaN_prints (fun _ => 0) nanServer hTime
    true hNames (List.forall_mem_singleton.mpr .null)
    (List.forall_mem_singleton.mpr heel_usable)
  have hReply : replyText oneOrNaNPage.toPrinter nanServer.msgs "1.5".toList
      [("heel_cmd.heel".toList, "null".toList)] =
        "\x7b\"time\":1.5,\"heel_cmd.heel\":nan\x7d".toList := by
    rw [replyText, answers, List.filterMap_cons, answerTo, if_pos rfl, hCurrent]
    rfl
  rw [hReply] at hServe hJson
  refine ⟨s', hServe, fun h => ?_⟩
  exact absurd (hJson.mp h _ (List.mem_singleton_self _) rfl _ hCurrent _ rfl) Bool.false_ne_true

end Sailbot.Ui
