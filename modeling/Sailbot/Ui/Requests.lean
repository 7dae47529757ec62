import Sailbot.Lib.Json
import Sailbot.Ui.Server

/-!
# Splitting a text into requests

The loop of `WebSocketServer::ProcessSocket` (`ui/server.cc`), as far as the text goes, with
the accesses of `std::string` that can fail: `substr` throws when it starts behind the end, and
`operator[]` may read one character behind the text. The counter of brackets is an `int` of the
source; texts with 2^31 brackets are not considered.

* `splitRound_eq`      — no access fails, and a round finds what `nextRequest` does.
* `Passes`             — the search for the end of a value runs over a text.
* `splitLoop_pageText` — the requests of a text that was written from a list of members.
-/

namespace Sailbot.Ui

open Lib

-- ---------------------------------------------------------------------------
-- The loop
-- ---------------------------------------------------------------------------

/-- `substr`; `len` is missing for `npos`, the end of the text. -/
def substr (text : List Char) (pos : Nat) (len : Option Nat) : Option (List Char) :=
  if pos ≤ text.length then
    match len with
    | none => some (text.drop pos)
    | some n => some ((text.drop pos).take n)
  else none

/-- `operator[]`: there is a null behind the text. -/
def charAt (text : List Char) (i : Nat) : Option Char :=
  if i = text.length then some (Char.ofNat 0) else text[i]?

/-- `msg.find('"') + 1`, where `npos + 1` is 0. -/
def startName (msg : List Char) : Nat :=
  match find '"' msg with
  | none => 0
  | some i => i + 1

/-- One round of the loop; `none` if an access fails. -/
def splitRound (msg : List Char) : Option Next :=
  match find ':' msg with
  | none => some .done
  | some colon => do
    let start := startName msg
    let endName := (find '"' (msg.drop start)).map (start + ·)
    let name ← substr msg start (endName.map (· - start))
    let msg := msg.drop (colon + 1)
    let (endVal, openCnt) := scan msg 0 0 false 0
    if openCnt > 0 then some .invalid
    else
      let endVal ←
        if openCnt = 0 then
          (charAt msg endVal).map fun c => if c ≠ ',' then endVal + 1 else endVal
        else some endVal
      let val ← substr msg 0 (some endVal)
      some (.request name val (msg.drop endVal))

/-- `substr` of a position in the text is defined. -/
theorem substr_eq {text : List Char} {pos : Nat} (h : pos ≤ text.length) (len : Option Nat) :
    substr text pos len =
      some (match len with
        | none => text.drop pos
        | some n => (text.drop pos).take n) := by
  unfold substr
  rw [if_pos h]
  cases len <;> rfl

/-- The search for the end of a value stays inside of the text. -/
theorem scan_le (text : List Char) (i : Nat) (openCnt : Int) (inQuote : Bool) (endVal : Nat)
    (h : endVal ≤ i) : (scan text i openCnt inQuote endVal).1 ≤ i + text.length := by
  fun_induction scan text i openCnt inQuote endVal with
  | case1 => simpa using h
  | case2 text i openCnt inQuote e ih =>
    have := ih (Nat.le_succ i)
    simp only [List.length_cons]
    omega
  | case3 c text i openCnt e hQuote ih =>
    have := ih (Nat.le_succ i)
    simp only [List.length_cons]
    omega
  | case4 => simp
  | case5 c text i openCnt inQuote e hQuote hNot open' hStop ih =>
    have := ih (Nat.le_succ i)
    simp only [List.length_cons]
    omega

/-- The name starts in the text. -/
theorem startName_le (msg : List Char) : startName msg ≤ msg.length := by
  unfold startName
  cases hFind : find '"' msg with
  | none => exact Nat.zero_le _
  | some i => exact find_lt hFind

/-- The name that the code cuts out is the name of the next request. -/
theorem substr_name (msg : List Char) :
    substr msg (startName msg)
        (((find '"' (msg.drop (startName msg))).map (startName msg + ·)).map (· - startName msg)) =
      some (nextName msg) := by
  have hName : nextName msg =
      match find '"' (msg.drop (startName msg)) with
      | none => msg.drop (startName msg)
      | some n => (msg.drop (startName msg)).take n := rfl
  rw [substr_eq (startName_le msg), hName]
  cases find '"' (msg.drop (startName msg)) with
  | none => rfl
  | some n => simp

/-- One behind the text, there is a character too, and it is no comma. -/
theorem charAt_eq {text : List Char} {i : Nat} (h : i ≤ text.length) :
    ∃ c, charAt text i = some c ∧ (c ≠ ',' ↔ text[i]? ≠ some ',') := by
  unfold charAt
  rcases Nat.lt_or_eq_of_le h with hLt | rfl
  · rw [if_neg hLt.ne, List.getElem?_eq_getElem hLt]
    exact ⟨text[i], rfl, by simp⟩
  · rw [if_pos rfl, List.getElem?_eq_none le_rfl]
    exact ⟨_, rfl, by decide⟩

/-- No access of a round fails. -/
theorem splitRound_eq (msg : List Char) : splitRound msg = some (nextRequest msg) := by
  unfold splitRound nextRequest
  cases find ':' msg with
  | none => rfl
  | some colon =>
    dsimp only
    rw [substr_name, Option.bind_eq_bind, Option.bind_some]
    have hLe := scan_le (msg.drop (colon + 1)) 0 0 false 0 le_rfl
    rw [Nat.zero_add] at hLe
    obtain ⟨c, hChar, hComma⟩ := charAt_eq hLe
    split
    · rfl
    · by_cases hZero : (scan (msg.drop (colon + 1)) 0 0 false 0).2 = 0
      · rw [if_pos hZero, hChar]
        simp only [hZero, hComma, true_and, Option.map_some, Option.bind_eq_bind, Option.bind_some]
        rw [substr_eq (Nat.zero_le _)]
        rfl
      · simp only [hZero, false_and, if_false, Option.bind_eq_bind, Option.bind_some]
        rw [substr_eq (Nat.zero_le _)]
        rfl

/-- Every request takes something off the text. -/
theorem splitRound_length {msg name val rest : List Char}
    (h : splitRound msg = some (.request name val rest)) : rest.length < msg.length :=
  nextRequest_length (Option.some.inj ((splitRound_eq msg).symm.trans h))

/-- The loop: its requests, and whether it ran until there was no colon left. -/
def splitLoop (msg : List Char) : Option (List (List Char × List Char) × Bool) :=
  match _hRound : splitRound msg with
  | none => none
  | some .done => some ([], true)
  | some .invalid => some ([], false)
  | some (.request name val rest) =>
    (splitLoop rest).map fun (more, complete) => ((name, val) :: more, complete)
termination_by msg.length
decreasing_by exact splitRound_length _hRound

/-- The loop ends where there is no request any more. -/
theorem splitLoop_done {msg : List Char} (h : nextRequest msg = .done) :
    splitLoop msg = some ([], true) := by
  have hRound := splitRound_eq msg
  rw [h] at hRound
  unfold splitLoop
  split <;> simp_all

/-- The loop goes on behind a request. -/
theorem splitLoop_request {msg name val rest : List Char}
    (h : nextRequest msg = .request name val rest) :
    splitLoop msg =
      (splitLoop rest).map fun (more, complete) => ((name, val) :: more, complete) := by
  have hRound := splitRound_eq msg
  rw [h] at hRound
  conv_lhs => unfold splitLoop
  split <;> simp_all

/-- The loop gives up where braces or brackets are not closed. -/
theorem splitLoop_invalid {msg : List Char} (h : nextRequest msg = .invalid) :
    splitLoop msg = some ([], false) := by
  have hRound := splitRound_eq msg
  rw [h] at hRound
  unfold splitLoop
  split <;> simp_all

/-- On every text the loop ends, and it has found the requests that are served. -/
theorem splitLoop_returns (msg : List Char) :
    ∃ complete, splitLoop msg = some (requests msg, complete) := by
  induction hLength : msg.length using Nat.strongRecOn generalizing msg with
  | _ length ih =>
    cases hNext : nextRequest msg with
    | done => exact ⟨true, by rw [splitLoop_done hNext, requests_stop (by simp [hNext])]⟩
    | invalid => exact ⟨false, by rw [splitLoop_invalid hNext, requests_stop (by simp [hNext])]⟩
    | request name val rest =>
      obtain ⟨complete, hRest⟩ := ih _ (hLength ▸ nextRequest_length hNext) rest rfl
      exact ⟨complete, by rw [splitLoop_request hNext, requests_request hNext, hRest]; rfl⟩

-- ---------------------------------------------------------------------------
-- The end of a value
-- ---------------------------------------------------------------------------

/-- The search for the end of a value runs over `t`, whatever follows, if at least `k` brackets
are open in front of it, and they are still open behind it. -/
def Passes (k : Int) (t : List Char) : Prop :=
  ∀ openCnt rest i endVal, k ≤ openCnt →
    scan (t ++ rest) i openCnt false endVal =
      scan rest (i + t.length) openCnt false (if t = [] then endVal else i + t.length - 1)

variable {k : Int} {t u : List Char}

/-- Nothing to pass. -/
theorem Passes.nil (k : Int) : Passes k [] := by
  intro openCnt rest i endVal _
  rfl

/-- One text behind another one. -/
theorem Passes.append (hFirst : Passes k t) (hSecond : Passes k u) : Passes k (t ++ u) := by
  intro openCnt rest i endVal hOpen
  rw [List.append_assoc, hFirst _ _ _ _ hOpen, hSecond _ _ _ _ hOpen, List.length_append,
    ← Nat.add_assoc]
  by_cases hNil : u = []
  · simp [hNil]
  · simp [hNil]

/-- What passes at one depth passes further in. -/
theorem Passes.mono {k' : Int} (h : Passes k t) (hk : k ≤ k') : Passes k' t :=
  fun openCnt rest i endVal hOpen => h openCnt rest i endVal (hk.trans hOpen)

/-- A plain character passes anywhere. -/
theorem Passes.char {c : Char} (h : Plain c) : Passes 0 [c] := by
  intro openCnt rest i endVal hOpen
  obtain ⟨hQuote, hComma, hSquare, hSquare', hCurly, hCurly'⟩ := h
  have hGo : ¬ (openCnt < 0 ∨ (c = ',' ∧ openCnt = 0)) := by
    rintro (hLt | ⟨hEq, -⟩)
    · omega
    · exact hComma hEq
  simp [scan, hQuote, hSquare, hSquare', hCurly, hCurly', hGo]

/-- A comma passes inside of braces or brackets only. -/
theorem Passes.comma : Passes 1 [','] := by
  intro openCnt rest i endVal hOpen
  have hGo : ¬ (openCnt < 0 ∨ openCnt = 0) := by omega
  simp [scan, hGo]

/-- A text of plain characters. -/
theorem Passes.plain (h : ∀ c ∈ t, Plain c) : Passes 0 t := by
  induction t with
  | nil => exact Passes.nil 0
  | cons c t ih =>
    obtain ⟨hc, ht⟩ := List.forall_mem_cons.mp h
    exact (Passes.char hc).append (ih ht)

/-- Behind an opening quote, the search runs on to the next quote. -/
theorem scan_quoted {s : List Char} (h : '"' ∉ s) (openCnt : Int) (rest : List Char)
    (i endVal : Nat) :
    scan (s ++ '"' :: rest) i openCnt true endVal =
      scan rest (i + s.length + 1) openCnt false (i + s.length) := by
  induction s generalizing i endVal with
  | nil => simp [scan]
  | cons c s ih =>
    obtain ⟨hc, hs⟩ := not_or.mp (List.mem_cons.not.mp h)
    rw [List.cons_append, scan, if_neg (Ne.symm hc), if_pos rfl, ih hs, List.length_cons]
    congr 1 <;> omega

/-- Whatever is in a string but quotes. -/
theorem Passes.string {s : List Char} (h : '"' ∉ s) : Passes k (jsonString s) := by
  intro openCnt rest i endVal _
  have hText : jsonString s ++ rest = '"' :: (s ++ '"' :: rest) := by simp [jsonString]
  have hSome : jsonString s ≠ [] := List.cons_ne_nil _ _
  have hLength : (jsonString s).length = s.length + 2 := by simp [jsonString]
  rw [hText, scan, if_pos rfl, Bool.not_false, scan_quoted h, if_neg hSome, hLength]
  congr 1 <;> omega

/-- A pair of brackets around a text: inside of it, one more is open. -/
theorem Passes.bracket {o c : Char} (h : (o = '[' ∧ c = ']') ∨ (o = '{' ∧ c = '}'))
    (ht : Passes 1 t) : Passes 0 (o :: (t ++ [c])) := by
  intro openCnt rest i endVal hOpen
  have hGo : ¬ (openCnt + 1 < 0) := by omega
  have hBack : ¬ (openCnt < 0) := by omega
  have hText : o :: (t ++ [c]) ++ rest = o :: (t ++ c :: rest) := by simp
  have hInside := ht (openCnt + 1) (c :: rest) (i + 1) i (by omega)
  rw [hText, if_neg (List.cons_ne_nil _ _)]
  rcases h with ⟨rfl, rfl⟩ | ⟨rfl, rfl⟩
  · simp [scan, hGo, hBack, hInside]
    congr 1 <;> omega
  · simp [scan, hGo, hBack, hInside]
    congr 1 <;> omega

/-- The commas between the parts are inside. -/
theorem Passes.intercalate {ts : List (List Char)} (h : ∀ t ∈ ts, Passes 1 t) :
    Passes 1 (List.intercalate [','] ts) := by
  induction ts with
  | nil => exact Passes.nil 1
  | cons t ts ih =>
    obtain ⟨ht, hts⟩ := List.forall_mem_cons.mp h
    cases ts with
    | nil => simpa using ht
    | cons u ts =>
      rw [List.intercalate_cons_cons]
      exact (ht.append Passes.comma).append (ih hts)

/-- A name and its value. -/
theorem Passes.member {name value : List Char} (hName : '"' ∉ name) (h : Passes 0 value) :
    Passes 0 (jsonMember name value) :=
  (Passes.string hName).append ((Passes.char (by decide)).append h)

/-- A text that needs no escapes has no quotes. -/
theorem Unescaped.no_quote {s : List Char} (h : Unescaped s) : '"' ∉ s :=
  fun hMem => (h '"' hMem).1 rfl

/-- The search runs over every value. -/
theorem Passes.jsonText {value : List Char} (h : JsonText value) : Passes 0 value := by
  induction h with
  | null | true | false => exact Passes.plain (by decide)
  | number t h => exact Passes.plain h.plain
  | string s h => exact Passes.string (Unescaped.no_quote h)
  | array ts h ih =>
    refine Passes.bracket (Or.inl ⟨rfl, rfl⟩) (Passes.intercalate ?_)
    intro t ht
    exact (ih t ht).mono (by decide)
  | object ms hNames h ih =>
    refine Passes.bracket (Or.inr ⟨rfl, rfl⟩) (Passes.intercalate ?_)
    intro t ht
    obtain ⟨m, hm, rfl⟩ := List.mem_map.mp ht
    exact (Passes.member (Unescaped.no_quote (hNames m hm)) (ih m hm)).mono (by decide)

-- ---------------------------------------------------------------------------
-- Texts of requests
-- ---------------------------------------------------------------------------

variable {name value : List Char}

/-- The first place of a character is where it is put. -/
theorem find_append {c : Char} {pre : List Char} (h : c ∉ pre) (text : List Char) :
    find c (pre ++ c :: text) = some pre.length := by
  rw [find, List.findIdx?_append, List.findIdx?_eq_none_iff.mpr, List.findIdx?_cons]
  · simp
  · intro d hd
    have : d ≠ c := fun hEq => h (hEq ▸ hd)
    simpa using this

/-- Without a colon there is no request. -/
theorem nextRequest_done {msg : List Char} (h : ':' ∉ msg) : nextRequest msg = .done := by
  have hFind : find ':' msg = none := by
    rw [find, List.findIdx?_eq_none_iff]
    intro c hc
    have : c ≠ ':' := fun hEq => h (hEq ▸ hc)
    simpa using this
  rw [nextRequest, hFind]

/-- A text whose end is found, in front of a comma or at the end of the whole text. -/
structure Delimited (value : List Char) : Prop where
  passes : Passes 0 value
  ne_nil : value ≠ []
  last   : value.getLast? ≠ some ','

/-- The end of a JSON text is found. -/
theorem Delimited.jsonText (h : JsonText value) : Delimited value :=
  ⟨Passes.jsonText h, h.ne_nil, h.getLast?_ne_comma⟩

/-- So is that of any text of plain characters, such as `nan`. -/
theorem Delimited.plain (h : ∀ c ∈ value, Plain c) (hNe : value ≠ []) : Delimited value :=
  ⟨Passes.plain h, hNe, fun hLast => (h ',' (List.mem_of_getLast? hLast)).2.1 rfl⟩

/-- The end that is found is that of the value, before a comma or the end of the text. -/
theorem Delimited.scan (h : Delimited value) {rest : List Char}
    (hRest : rest = [] ∨ ∃ more, rest = ',' :: more) :
    ∃ endVal, scan (value ++ rest) 0 0 false 0 = (endVal, 0) ∧
      (if (value ++ rest)[endVal]? ≠ some ',' then endVal + 1 else endVal) = value.length := by
  have hScan := h.passes 0 rest 0 0 le_rfl
  rw [if_neg h.ne_nil, Nat.zero_add] at hScan
  rcases hRest with rfl | ⟨more, rfl⟩
  · refine ⟨value.length - 1, hScan, ?_⟩
    have hPos : 0 < value.length := List.length_pos_of_ne_nil h.ne_nil
    rw [List.append_nil, ← List.getLast?_eq_getElem?, if_pos h.last]
    omega
  · refine ⟨value.length, by rw [hScan]; simp [Ui.scan], ?_⟩
    rw [if_neg (by simp)]

/-- What is behind a character. -/
theorem drop_behind (pre : List Char) (c : Char) (text : List Char) :
    (pre ++ c :: text).drop (pre.length + 1) = text := by
  rw [← List.singleton_append, ← List.append_assoc]
  exact List.drop_left' (by simp)

/-- The next member of a text is the next request. -/
theorem nextRequest_member {pre rest : List Char} (hPre : '"' ∉ pre ∧ ':' ∉ pre)
    (hName : '"' ∉ name ∧ ':' ∉ name) (h : Delimited value)
    (hRest : rest = [] ∨ ∃ more, rest = ',' :: more) :
    nextRequest (pre ++ (jsonMember name value ++ rest)) = .request name value rest := by
  have hQuote : pre ++ (jsonMember name value ++ rest) =
      pre ++ '"' :: (name ++ '"' :: ':' :: (value ++ rest)) := by
    simp [jsonMember, jsonString]
  have hNext : nextName (pre ++ (jsonMember name value ++ rest)) = name := by
    rw [hQuote, nextName, find_append hPre.1]
    dsimp only
    rw [drop_behind, find_append hName.1]
    exact List.take_left
  have hColon : pre ++ (jsonMember name value ++ rest) =
      (pre ++ jsonString name) ++ ':' :: (value ++ rest) := by
    simp [jsonMember]
  have hFront : ':' ∉ pre ++ jsonString name := by simp [jsonString, hPre, hName]
  obtain ⟨endVal, hScan, hEnd⟩ := h.scan hRest
  rw [nextRequest, hNext, hColon, find_append hFront]
  dsimp only
  rw [drop_behind, hScan, if_neg (lt_irrefl _)]
  simp only [true_and]
  rw [hEnd, List.take_left, List.drop_left]

/-- The members of a text of the page, with a comma between them, or behind each of them. -/
def pageMembers (pairs : List (List Char × List Char)) (trailing : Bool) : List Char :=
  List.intercalate [','] (pairs.map fun p => jsonMember p.1 p.2) ++
    if trailing then [','] else []

/-- A text of the page. -/
def pageText (pairs : List (List Char × List Char)) (trailing : Bool) : List Char :=
  '{' :: (pageMembers pairs trailing ++ ['}'])

/-- The braces that are stripped are those around the members. -/
theorem stripBraces_pageText (pairs : List (List Char × List Char)) (trailing : Bool) :
    stripBraces (pageText pairs trailing) = pageMembers pairs trailing := by
  unfold stripBraces pageText
  rw [List.head?_cons, if_pos rfl, List.tail_cons]
  dsimp only
  rw [List.getLast?_concat, if_pos rfl, List.dropLast_concat]

/-- The first member, a comma if there are more, and the rest. -/
theorem pageMembers_cons (p : List Char × List Char) (pairs : List (List Char × List Char))
    (trailing : Bool) :
    ∃ sep, (sep = [] ∨ sep = [',']) ∧
      pageMembers (p :: pairs) trailing =
        jsonMember p.1 p.2 ++ (sep ++ pageMembers pairs trailing) ∧
      (sep ++ pageMembers pairs trailing = [] ∨
        ∃ more, sep ++ pageMembers pairs trailing = ',' :: more) := by
  cases pairs with
  | nil =>
    refine ⟨[], Or.inl rfl, by simp [pageMembers], ?_⟩
    cases trailing with
    | false => exact Or.inl rfl
    | true => exact Or.inr ⟨[], rfl⟩
  | cons q pairs => exact ⟨[','], Or.inr rfl, by simp [pageMembers], Or.inr ⟨_, rfl⟩⟩

/-- By induction over the members; the comma in front of a member is left over from the
member before it. -/
theorem splitLoop_delimited (trailing : Bool) {pairs : List (List Char × List Char)}
    (hNames : ∀ p ∈ pairs, '"' ∉ p.1 ∧ ':' ∉ p.1) (hValues : ∀ p ∈ pairs, Delimited p.2)
    {sep : List Char} (hSep : sep = [] ∨ sep = [',']) :
    splitLoop (sep ++ pageMembers pairs trailing) = some (pairs, true) := by
  induction pairs generalizing sep with
  | nil =>
    refine splitLoop_done (nextRequest_done ?_)
    rcases hSep with rfl | rfl <;> cases trailing <;> decide
  | cons p pairs ih =>
    obtain ⟨hName, hNames⟩ := List.forall_mem_cons.mp hNames
    obtain ⟨hValue, hValues⟩ := List.forall_mem_cons.mp hValues
    have hFree : '"' ∉ sep ∧ ':' ∉ sep := by rcases hSep with rfl | rfl <;> decide
    obtain ⟨sep', hSep', hText, hRest⟩ := pageMembers_cons p pairs trailing
    rw [hText, splitLoop_request (nextRequest_member hFree hName hValue hRest),
      ih hNames hValues hSep']
    rfl

/-- By induction over the members: the loop finds each of them. -/
theorem splitLoop_members (trailing : Bool) {pairs : List (List Char × List Char)}
    (hNames : ∀ p ∈ pairs, '"' ∉ p.1 ∧ ':' ∉ p.1) (hValues : ∀ p ∈ pairs, JsonText p.2)
    {sep : List Char} (hSep : sep = [] ∨ sep = [',']) :
    splitLoop (sep ++ pageMembers pairs trailing) = some (pairs, true) :=
  splitLoop_delimited trailing hNames (fun p hp => Delimited.jsonText (hValues p hp)) hSep

/--
**The requests of a text.** A text that was written from a list of members, with or without a
comma behind the last one, is split into this list. On any text, the loop ends, and no access
to the text fails.
-/
theorem splitLoop_pageText (pairs : List (List Char × List Char)) (trailing : Bool)
    (hNames : ∀ p ∈ pairs, '"' ∉ p.1 ∧ ':' ∉ p.1) (hValues : ∀ p ∈ pairs, JsonText p.2) :
    splitLoop (stripBraces (pageText pairs trailing)) = some (pairs, true) ∧
      ∀ msg, ∃ complete, splitLoop msg = some (requests msg, complete) := by
  constructor
  · rw [stripBraces_pageText]
    exact splitLoop_members trailing hNames hValues (Or.inl rfl)
  · exact splitLoop_returns

/-- A queue is set to an object with an array and a string in it, and another one is read. -/
theorem splitLoop_set_and_get :
    splitLoop (stripBraces
        "\x7b\"req\":\x7b\"a\":[2,-3.5e1],\"b\":\"x,:]\x7b\"\x7d,\"res.ab\":null,\x7d".toList) =
      some ([("req".toList, "\x7b\"a\":[2,-3.5e1],\"b\":\"x,:]\x7b\"\x7d".toList),
        ("res.ab".toList, "null".toList)], true) := by
  have hTwo : JsonText "2".toList :=
    .number _ ⟨[], ['2'], [], [], rfl, Or.inl rfl, Or.inr ⟨by decide, by decide⟩, Or.inl rfl,
      Or.inl rfl⟩
  have hReal : JsonText "-3.5e1".toList :=
    .number _ ⟨['-'], ['3'], ['.', '5'], ['e', '1'], rfl, Or.inr rfl,
      Or.inr ⟨by decide, by decide⟩, Or.inr ⟨['5'], by decide, rfl⟩,
      Or.inr ⟨'e', [], ['1'], Or.inl rfl, Or.inl rfl, by decide, rfl⟩⟩
  have hArray : JsonText "[2,-3.5e1]".toList :=
    .array ["2".toList, "-3.5e1".toList]
      (List.forall_mem_cons.mpr ⟨hTwo, List.forall_mem_singleton.mpr hReal⟩)
  have hString : JsonText "\"x,:]\x7b\"".toList := .string "x,:]\x7b".toList (by decide)
  have hObject : JsonText "\x7b\"a\":[2,-3.5e1],\"b\":\"x,:]\x7b\"\x7d".toList :=
    .object [("a".toList, "[2,-3.5e1]".toList), ("b".toList, "\"x,:]\x7b\"".toList)] (by decide)
      (List.forall_mem_cons.mpr ⟨hArray, List.forall_mem_singleton.mpr hString⟩)
  exact (splitLoop_pageText
    [("req".toList, "\x7b\"a\":[2,-3.5e1],\"b\":\"x,:]\x7b\"\x7d".toList),
      ("res.ab".toList, "null".toList)] true (by decide)
    (List.forall_mem_cons.mpr ⟨hObject, List.forall_mem_singleton.mpr .null⟩)).1

end Sailbot.Ui
