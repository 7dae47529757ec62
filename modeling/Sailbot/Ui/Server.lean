import Sailbot.Ipc.Representation
import Sailbot.Ui.CurrentVal

/-!
# Requests from the web page

`WebSocketServer::ProcessSocket` (`ui/server.cc`). A text from the page is a list of
members; a member whose value is `null` asks for a current value, and any other one sets a
queue: its value is parsed into the member of that name of an empty `LogEntry`, which is
serialised into a buffer of 1024 bytes and sent. The result of the serialisation is not
looked at, and the queue is told the size of the message, whatever the buffer holds.

* `setValue_whole_iff` — when a set request is delivered whole or not at all.
* `serve_set`, `serve_throws` — what that means for the requests behind it.
* `serve_returns`      — a text in which every request is fine is served to its end.

The time of the last request and the connection status are left out, and so are the
queues of tests.
-/

namespace Sailbot.Ui

open Lib Ipc

variable {D : Type}

-- ---------------------------------------------------------------------------
-- The server
-- ---------------------------------------------------------------------------

/-- What the server uses of the JSON and the wire format. -/
structure Page (R : Messages MsgType D) extends Printer R where
  /-- `JsonStringToMessage`. -/
  jsonToMessage : (u : MsgType) → List Char → Option (R.Message u)
  /-- An empty `LogEntry` after the message was written to the one member. -/
  entry : FieldDescriptor MsgType → (u : MsgType) → R.Message u → R.Message .logEntry
  /-- The bytes of a message; `ByteSize` is their number. -/
  serialize : R.Message .logEntry → List UInt8

/-- The server: the messages that it has received, the queues that it sends on, and, as a
history, what it has put on them. Every member of a `LogEntry` has a queue, for messages of
up to 1024 bytes. -/
structure Server (R : Messages MsgType D) where
  msgs       : List Char → Option (R.Message .logEntry)
  sendMsgs   : List Char → Option MqHdr
  sent       : List (List Char × List UInt8)
  registered : ∀ f ∈ MsgType.fields .logEntry,
    ∃ q, sendMsgs f.name.toList = some q ∧ q.maxMsgSize = 1024

def lowercaseName (f : FieldDescriptor MsgType) : List Char := f.name.toList.map Char.toLower

/-- The constructor: a queue for every member, under its name in lower case. `queue` is the
queue that is opened or created for a name. -/
def Server.new (R : Messages MsgType D)
    (queue : List Char → { q : MqHdr // q.maxMsgSize = 1024 }) : Server R where
  msgs := fun _ => none
  sendMsgs := fun name =>
    if name ∈ (MsgType.fields .logEntry).map lowercaseName then some (queue name).1 else none
  sent := []
  registered := by
    intro f hf
    have hName : lowercaseName f = f.name.toList := (logEntry_members f hf).2.2.2
    exact ⟨(queue f.name.toList).1, if_pos (hName ▸ List.mem_map_of_mem hf),
      (queue f.name.toList).2⟩

/-- How a call ends that does not return. -/
inductive Crash
  | abort (e : Misuse)
  /-- `send_msgs_[name]` is null. -/
  | noQueue
  /-- `interprocess_exception`, which nothing catches. -/
  | exception (e : Error)
  deriving DecidableEq, Repr

variable {R : Messages MsgType D}

/-- `send_msgs_[name]->send`. -/
def Server.send (s : Server R) (name : List Char) (data : List UInt8) :
    Except Crash (Server R) :=
  match hQueue : s.sendMsgs name with
  | none => .error .noQueue
  | some q =>
    match hSend : q.doSend ⟨s.sent.length + 1, data⟩ with
    | .error e => .error (.exception e)
    | .ok q' => .ok
      { msgs := s.msgs
        sendMsgs := Function.update s.sendMsgs name (some q')
        sent := s.sent ++ [(name, data)]
        registered := by
          intro f hf
          obtain ⟨old, hOld, hSize⟩ := s.registered f hf
          by_cases hName : f.name.toList = name
          · have hSame : old = q := by simpa [hName, hQueue] using hOld.symm
            have hKept := (MqHdr.doSend_ok hSend).2.2.1
            exact ⟨q', by rw [hName, Function.update_self], by rw [hKept, ← hSame, hSize]⟩
          · exact ⟨old, by rw [Function.update_of_ne hName, hOld], hSize⟩ }

/-- `SerializeToArray` into `buf`, of `size` bytes. A message that does not fit is not
written. -/
def serializeToArray (bytes : List UInt8) (buf : Nat → UInt8) (size : Nat) : Nat → UInt8 :=
  if bytes.length ≤ size then fun i => bytes.getD i (buf i) else buf

/-- The set branch of `ProcessSocket`; `undef` is the memory from `buf` on. -/
def setValue (P : Page R) (undef : Nat → UInt8) (s : Server R) (name val : List Char) :
    Except Crash (Server R) :=
  match find '.' name with
  | some _ => .ok s
  | none =>
    match schema.findFieldByName .logEntry name with
    | none => .ok s
    | some field =>
      match mutableMessage field with
      | .error e => .error (.abort e)
      | .ok u =>
        match P.jsonToMessage u val with
        | none => .ok s
        | some submsg =>
          let bytes := P.serialize (P.entry field u submsg)
          let buf := serializeToArray bytes undef 1024
          s.send name ((List.range bytes.length).map buf)

/-- One request: the new state and what is added to the reply. -/
def handle (P : Page R) (undef : Nat → UInt8) (s : Server R) (name val : List Char) :
    Except Crash (Server R × List Char) :=
  if val = "null".toList then
    match getCurrentVal P.toPrinter s.msgs name with
    | .error e => .error (.abort e)
    | .ok out => .ok (s, out)
  else (fun s' => (s', [])) <$> setValue P undef s name val

-- ---------------------------------------------------------------------------
-- The text of a request
-- ---------------------------------------------------------------------------

/-- The loop that looks for the end of a value: `i` characters are behind it. The results
are `end_val` and `open_cnt`. -/
def scan : List Char → Nat → Int → Bool → Nat → Nat × Int
  | [], _, openCnt, _, endVal => (endVal, openCnt)
  | c :: text, i, openCnt, inQuote, _ =>
    if c = '"' then scan text (i + 1) openCnt (!inQuote) i
    else if inQuote then scan text (i + 1) openCnt inQuote i
    else
      let openCnt :=
        if c = '[' ∨ c = '{' then openCnt + 1
        else if c = ']' ∨ c = '}' then openCnt - 1
        else openCnt
      if openCnt < 0 ∨ (c = ',' ∧ openCnt = 0) then (i, openCnt)
      else scan text (i + 1) openCnt inQuote i

/-- What the next round of the loop finds in the text. -/
inductive Next
  | done
  | invalid
  | request (name val rest : List Char)
  deriving DecidableEq, Repr

/-- The name between the next two quotes. -/
def nextName (msg : List Char) : List Char :=
  let start := match find '"' msg with
    | none => 0
    | some i => i + 1
  match find '"' (msg.drop start) with
  | none => msg.drop start
  | some n => (msg.drop start).take n

def nextRequest (msg : List Char) : Next :=
  match find ':' msg with
  | none => .done
  | some colon =>
    let text := msg.drop (colon + 1)
    let (endVal, openCnt) := scan text 0 0 false 0
    if openCnt > 0 then .invalid
    else
      let endVal := if openCnt = 0 ∧ text[endVal]? ≠ some ',' then endVal + 1 else endVal
      .request (nextName msg) (text.take endVal) (text.drop endVal)

/-- A request takes something off the text. -/
theorem nextRequest_length {msg name val rest : List Char}
    (h : nextRequest msg = .request name val rest) : rest.length < msg.length := by
  unfold nextRequest at h
  split at h
  case h_1 => cases h
  case h_2 colon hColon =>
    dsimp only at h
    split at h
    case isTrue => cases h
    case isFalse =>
      obtain ⟨-, -, rfl⟩ := Next.request.inj h
      have := find_lt hColon
      simp only [List.length_drop]
      omega

/-- The loop over the requests. There is no reply to an invalid text, but the requests
before the fault were handled. -/
def serve (P : Page R) (undef : Nat → UInt8) (s : Server R) (msg out : List Char) :
    Except Crash (Server R × Option (List Char)) :=
  match _hNext : nextRequest msg with
  | .done => .ok (s, some out)
  | .invalid => .ok (s, none)
  | .request name val rest =>
    match handle P undef s name val with
    | .error e => .error e
    | .ok (s', more) => serve P undef s' rest (out ++ more)
termination_by msg.length
decreasing_by exact nextRequest_length _hNext

/-- The text without the braces around it. -/
def stripBraces (message : List Char) : List Char :=
  let msg := if message.head? = some '{' then message.tail else message
  if msg.getLast? = some '}' then msg.dropLast else msg

/-- `ProcessSocket`; `time` is the text of the current time. The last character of the reply
is a comma, which is overwritten. -/
def processSocket (P : Page R) (undef : Nat → UInt8) (isShutdown : Bool) (time : List Char)
    (s : Server R) (message : List Char) : Except Crash (Server R × Option (List Char)) :=
  if isShutdown then .ok (s, none)
  else
    let out := "\x7b\"time\":".toList ++ time ++ [',']
    (fun (s', reply) => (s', reply.map (·.dropLast ++ ['}']))) <$>
      serve P undef s (stripBraces message) out

-- ---------------------------------------------------------------------------
-- Set requests
-- ---------------------------------------------------------------------------

/-- What a set request asks for: the serialised `LogEntry` with the value as its member
`name`; nothing if there is no such member, or if the value is not a value of its type. -/
def requested (P : Page R) (name val : List Char) : Option (List UInt8) :=
  match schema.findFieldByName .logEntry name with
  | none => none
  | some field =>
    match field.type with
    | .message u => (P.jsonToMessage u val).map fun submsg => P.serialize (P.entry field u submsg)
    | _ => none

/-- What the queue takes. -/
def deliverable (P : Page R) (name val : List Char) : Option (List UInt8) :=
  (requested P name val).filter (·.length ≤ 1024)

variable {P : Page R} {undef : Nat → UInt8} {s s' : Server R} {name val : List Char}

/-- A message that fits is in the buffer, byte by byte. -/
theorem map_serializeToArray {bytes : List UInt8} {size : Nat} (h : bytes.length ≤ size) :
    (List.range bytes.length).map (serializeToArray bytes undef size) = bytes := by
  rw [serializeToArray, if_pos h]
  apply List.ext_getElem
  · simp
  · intro i hi hBytes
    simp [List.getD_eq_getElem?_getD, List.getElem?_eq_getElem hBytes]

/-- A field that is found is one of the entry's, and has the name. -/
theorem findFieldByName_logEntry {f : FieldDescriptor MsgType}
    (h : schema.findFieldByName .logEntry name = some f) :
    f ∈ MsgType.fields .logEntry ∧ f.name.toList = name :=
  ⟨List.mem_of_find?_eq_some h, by simpa using List.find?_some h⟩

/-- A message that fits goes on the queue. -/
theorem send_ok (hQueue : ∃ f ∈ MsgType.fields .logEntry, f.name.toList = name)
    {data : List UInt8} (hLength : data.length ≤ 1024) :
    ∃ s', s.send name data = .ok s' ∧ s'.msgs = s.msgs ∧ s'.sent = s.sent ++ [(name, data)] := by
  obtain ⟨f, hf, rfl⟩ := hQueue
  obtain ⟨q, hq, hSize⟩ := s.registered f hf
  unfold Server.send
  split
  · simp_all
  case h_2 q' hq' =>
    obtain rfl : q = q' := Option.some.inj (hq.symm.trans hq')
    split
    case h_1 e hError =>
      rw [MqHdr.doSend, if_neg (by simp; omega)] at hError
      cases hError
    case h_2 => exact ⟨_, rfl, rfl, rfl⟩

/-- A message that is too long for the queue throws. -/
theorem send_tooLong (hQueue : ∃ f ∈ MsgType.fields .logEntry, f.name.toList = name)
    {data : List UInt8} (hLength : 1024 < data.length) :
    s.send name data = .error (.exception .sizeError) := by
  obtain ⟨f, hf, rfl⟩ := hQueue
  obtain ⟨q, hq, hSize⟩ := s.registered f hf
  unfold Server.send
  split
  · simp_all
  case h_2 q' hq' =>
    obtain rfl : q = q' := Option.some.inj (hq.symm.trans hq')
    have hError : q.doSend ⟨s.sent.length + 1, data⟩ = .error .sizeError :=
      if_pos (by rw [hSize]; exact hLength)
    split
    case h_1 e he =>
      obtain rfl := Except.error.inj (he.symm.trans hError)
      rfl
    case h_2 q'' hOk => rw [hOk] at hError; cases hError

/-- A request that asks for nothing. -/
theorem setValue_of_none (h : requested P name val = none) :
    setValue P undef s name val = .ok s := by
  unfold setValue
  split
  · rfl
  cases hFind : schema.findFieldByName .logEntry name with
  | none => rfl
  | some field =>
    obtain ⟨hSingular, ⟨u, hType⟩, -⟩ :=
      logEntry_members field (findFieldByName_logEntry hFind).1
    have hParse : P.jsonToMessage u val = none := by
      rw [requested, hFind] at h
      simpa [hType] using h
    simp only [mutableMessage_ok hSingular hType, hParse]

/-- A request that asks for something is a call of `send` with as many bytes. -/
theorem setValue_of_some (undef : Nat → UInt8) (s : Server R) {bytes : List UInt8}
    (h : requested P name val = some bytes) :
    (∃ f ∈ MsgType.fields .logEntry, f.name.toList = name) ∧
      setValue P undef s name val =
        s.send name ((List.range bytes.length).map (serializeToArray bytes undef 1024)) := by
  cases hFind : schema.findFieldByName .logEntry name with
  | none => simp [requested, hFind] at h
  | some field =>
    obtain ⟨hField, hName⟩ := findFieldByName_logEntry hFind
    obtain ⟨hSingular, ⟨u, hType⟩, hDot, -⟩ := logEntry_members field hField
    rw [requested, hFind] at h
    obtain ⟨submsg, hParse, rfl⟩ : ∃ submsg, P.jsonToMessage u val = some submsg ∧
        P.serialize (P.entry field u submsg) = bytes := by
      simpa [hType] using h
    have hNoDot : find '.' name = none := by
      rw [find, List.findIdx?_eq_none_iff]
      intro c hc
      have : c ≠ '.' := fun hEq => hDot (hName ▸ hEq ▸ hc)
      simpa using this
    refine ⟨⟨field, hField, hName⟩, ?_⟩
    unfold setValue
    simp only [hNoDot, hFind, mutableMessage_ok hSingular hType, hParse]

/-- A request is handled as the page expects: the queue gets what it asks for if it can
take that, and nothing otherwise; and the requests behind it are handled. -/
def Whole (P : Page R) (undef : Nat → UInt8) (s : Server R) (name val : List Char) : Prop :=
  ∃ s', setValue P undef s name val = .ok s' ∧ s'.msgs = s.msgs ∧
    s'.sent = s.sent ++ (deliverable P name val).toList.map (name, ·) ∧
    ∀ msg rest out, val ≠ "null".toList → nextRequest msg = .request name val rest →
      serve P undef s msg out = serve P undef s' rest out

/-- The loop handles one request and goes on. -/
theorem serve_request {msg rest out : List Char}
    (hNext : nextRequest msg = .request name val rest) :
    serve P undef s msg out =
      match handle P undef s name val with
      | .error e => .error e
      | .ok (s', more) => serve P undef s' rest (out ++ more) := by
  rw [serve]
  split
  case h_1 hDone => rw [hDone] at hNext; cases hNext
  case h_2 hInvalid => rw [hInvalid] at hNext; cases hNext
  case h_3 name' val' rest' hRequest =>
    rw [hRequest] at hNext
    obtain ⟨rfl, rfl, rfl⟩ := Next.request.inj hNext
    cases handle P undef s name' val' <;> rfl

/-- Every request but one with `null` is a set request. -/
theorem handle_set (hVal : val ≠ "null".toList) :
    handle P undef s name val = (fun s' => (s', [])) <$> setValue P undef s name val :=
  if_neg hVal

/-- A set request adds nothing to the reply. -/
theorem serve_set {msg rest out : List Char} (hVal : val ≠ "null".toList)
    (hNext : nextRequest msg = .request name val rest)
    (hSet : setValue P undef s name val = .ok s') :
    serve P undef s msg out = serve P undef s' rest out := by
  rw [serve_request hNext, handle_set hVal, hSet]
  show serve P undef s' rest (out ++ []) = _
  rw [List.append_nil]

/-- A set request that the queue does not take ends the whole call, and the thread of the
web server with it. -/
theorem serve_throws {msg rest out : List Char} {e : Crash} (hVal : val ≠ "null".toList)
    (hNext : nextRequest msg = .request name val rest)
    (hSet : setValue P undef s name val = .error e) :
    serve P undef s msg out = .error e := by
  rw [serve_request hNext, handle_set hVal, hSet]
  rfl

/-- A message that fits, or none at all, is handled without a fault. -/
theorem setValue_of_fits (undef : Nat → UInt8) (s : Server R)
    (h : ∀ bytes, requested P name val = some bytes → bytes.length ≤ 1024) :
    ∃ s', setValue P undef s name val = .ok s' ∧ s'.msgs = s.msgs ∧
      s'.sent = s.sent ++ (deliverable P name val).toList.map (name, ·) := by
  cases hRequested : requested P name val with
  | none =>
    exact ⟨s, setValue_of_none hRequested, rfl, by simp [deliverable, hRequested]⟩
  | some bytes =>
    obtain ⟨hQueue, hSend⟩ := setValue_of_some undef s hRequested
    have hLength : bytes.length ≤ 1024 := h bytes hRequested
    have hDeliverable : deliverable P name val = some bytes := by
      rw [deliverable, hRequested, Option.filter_some, if_pos (by simpa using hLength)]
    rw [map_serializeToArray hLength] at hSend
    obtain ⟨s', hOk, hMsgs, hSent⟩ := send_ok (s := s) hQueue hLength
    exact ⟨s', hSend.trans hOk, hMsgs, by rw [hDeliverable]; exact hSent⟩

/-- A set request is delivered whole or not at all, and the rest of the text is served,
exactly when what it asks for is not longer than a message of the queue. -/
theorem setValue_whole_iff (P : Page R) (undef : Nat → UInt8) (s : Server R)
    (name val : List Char) :
    Whole P undef s name val ↔
      ∀ bytes, requested P name val = some bytes → bytes.length ≤ 1024 := by
  constructor
  · rintro ⟨s', hSet, -⟩ bytes hRequested
    by_contra hLength
    obtain ⟨hQueue, hSend⟩ := setValue_of_some undef s hRequested
    rw [hSend, send_tooLong hQueue (by simp; omega)] at hSet
    cases hSet
  · intro h
    obtain ⟨s', hSet, hMsgs, hSent⟩ := setValue_of_fits undef s h
    refine ⟨s', hSet, hMsgs, hSent, ?_⟩
    intro msg rest out hVal hNext
    exact serve_set hVal hNext hSet

/-- A list of `n` waypoints, all at `x = 1`, as the page writes it. -/
def waypointsJson (n : Nat) : List Char :=
  "\x7b\"points\":[".toList ++
    List.intercalate [','] (List.replicate n "\x7b\"x\":1\x7d".toList) ++ "]\x7d".toList

/-- The same list on the wire, as member 505 of a `LogEntry`, for 12 to 1489 waypoints. -/
def waypointsBytes (n : Nat) : List UInt8 :=
  [0xCA, 0x1F, UInt8.ofNat (n * 11 % 128 + 128), UInt8.ofNat (n * 11 / 128)] ++
    (List.replicate n [0x0A, 0x09, 0x09, 0, 0, 0, 0, 0, 0, 0xF0, 0x3F]).flatten

/-- How long the list is on the wire. -/
theorem waypointsBytes_length (n : Nat) : (waypointsBytes n).length = 4 + n * 11 := by
  simp [waypointsBytes]
  omega

/-- Messages that are known by the number of their waypoints: a page that sets `n`. -/
def waypointsPage (n : Nat) : Page (allSet Nat) where
  toJson := waypointsJson
  number := fun _ => ['0']
  ofInt := id
  jsonToMessage := fun _ val => if val = waypointsJson n then some n else none
  entry := fun _ _ n => n
  serialize := waypointsBytes

/-- What the page of the witnesses asks for. -/
theorem requested_waypoints (n : Nat) :
    requested (waypointsPage n) "waypoints".toList (waypointsJson n) =
      some (waypointsBytes n) := by
  have hFind : schema.findFieldByName .logEntry "waypoints".toList =
      some (optional (.message .waypointList) "waypoints") := by decide
  have hParse : (waypointsPage n).jsonToMessage .waypointList (waypointsJson n) = some n :=
    if_pos rfl
  rw [requested, hFind]
  dsimp only [optional]
  rw [hParse]
  rfl

/-- A hundred waypoints are too long for the queue, and nothing catches that. -/
theorem setValue_throws :
    setValue (waypointsPage 100) (fun _ => 0)
      (Server.new (allSet Nat) fun _ => ⟨.new 10 1024 fun _ => [], rfl⟩) "waypoints".toList
      (waypointsJson 100) = .error (.exception .sizeError) := by
  obtain ⟨hQueue, hSend⟩ := setValue_of_some (fun _ => 0)
    (Server.new (allSet Nat) fun _ => ⟨.new 10 1024 fun _ => [], rfl⟩) (requested_waypoints 100)
  rw [hSend]
  refine send_tooLong hQueue ?_
  rw [List.length_map, List.length_range, waypointsBytes_length]
  decide

-- ---------------------------------------------------------------------------
-- Whole texts
-- ---------------------------------------------------------------------------

/-- The requests of a text, up to the first fault. -/
def requests (msg : List Char) : List (List Char × List Char) :=
  match _hNext : nextRequest msg with
  | .request name val rest => (name, val) :: requests rest
  | _ => []
termination_by msg.length
decreasing_by exact nextRequest_length _hNext

/-- The first request of a text and those behind it. -/
theorem requests_request {msg rest : List Char}
    (hNext : nextRequest msg = .request name val rest) :
    requests msg = (name, val) :: requests rest := by
  rw [requests]
  split
  case h_1 name' val' rest' hRequest =>
    rw [hRequest] at hNext
    obtain ⟨rfl, rfl, rfl⟩ := Next.request.inj hNext
    rfl
  case h_2 hOther => exact absurd hNext (hOther name val rest)

/-- Where no request is found there are none. -/
theorem requests_stop {msg : List Char}
    (h : ∀ name val rest, nextRequest msg ≠ .request name val rest) : requests msg = [] := by
  rw [requests]
  split
  case h_1 name val rest hRequest => exact absurd hRequest (h name val rest)
  case h_2 => rfl

/-- Where no request is found the loop ends and the server stays as it was. -/
theorem serve_stop (P : Page R) (undef : Nat → UInt8) (s : Server R) {msg : List Char}
    (h : ∀ name val rest, nextRequest msg ≠ .request name val rest) (out : List Char) :
    ∃ reply, serve P undef s msg out = .ok (s, reply) := by
  rw [serve]
  split
  case h_1 => exact ⟨some out, rfl⟩
  case h_2 => exact ⟨none, rfl⟩
  case h_3 name val rest hRequest => exact absurd hRequest (h name val rest)

/-- A request that the server survives. -/
def Fine (P : Page R) (r : List Char × List Char) : Prop :=
  if r.2 = "null".toList then schema.Usable .logEntry (pathOf r.1)
  else ∀ bytes, requested P r.1 r.2 = some bytes → bytes.length ≤ 1024

/-- What a request puts on the queues. -/
def puts (P : Page R) (r : List Char × List Char) : List (List Char × List UInt8) :=
  if r.2 = "null".toList then [] else (deliverable P r.1 r.2).toList.map (r.1, ·)

/-- A request that the server survives puts on the queues what it should. -/
theorem handle_fine (undef : Nat → UInt8) (s : Server R) (h : Fine P (name, val)) :
    ∃ s' more, handle P undef s name val = .ok (s', more) ∧
      s'.sent = s.sent ++ puts P (name, val) := by
  by_cases hVal : val = "null".toList
  · have hUsable : schema.Usable .logEntry (pathOf name) := by rwa [Fine, if_pos hVal] at h
    obtain ⟨out, hOut, -⟩ :=
      (getCurrentVal_returns_iff P.toPrinter s.msgs name).mpr (Or.inr hUsable)
    exact ⟨s, out, by rw [handle, if_pos hVal, hOut], by rw [puts, if_pos hVal, List.append_nil]⟩
  · rw [Fine, if_neg hVal] at h
    obtain ⟨s', hSet, -, hSent⟩ := setValue_of_fits undef s h
    refine ⟨s', [], ?_, by rw [puts, if_neg hVal, hSent]⟩
    rw [handle_set hVal, hSet]
    rfl

/-- A text whose requests are all fine is served to its end, or to its first fault, and the
queues get all of the messages in their order. -/
theorem serve_returns {msg : List Char} (out : List Char) (h : ∀ r ∈ requests msg, Fine P r) :
    ∃ s' reply, serve P undef s msg out = .ok (s', reply) ∧
      s'.sent = s.sent ++ (requests msg).flatMap (puts P) := by
  induction hLength : msg.length using Nat.strongRecOn generalizing msg s out with
  | _ length ih =>
    by_cases hNext : ∃ name val rest, nextRequest msg = .request name val rest
    · obtain ⟨name, val, rest, hNext⟩ := hNext
      rw [requests_request hNext] at h ⊢
      obtain ⟨hFirst, hRest⟩ := List.forall_mem_cons.mp h
      obtain ⟨s₁, more, hHandle, hSent₁⟩ := handle_fine undef s hFirst
      obtain ⟨s₂, reply, hServe, hSent₂⟩ :=
        ih _ (hLength ▸ nextRequest_length hNext) (s := s₁) (out ++ more) hRest rfl
      refine ⟨s₂, reply, ?_, ?_⟩
      · rw [serve_request hNext, hHandle]
        exact hServe
      · rw [hSent₂, hSent₁, List.flatMap_cons, List.append_assoc]
    · simp only [not_exists] at hNext
      obtain ⟨reply, hServe⟩ := serve_stop P undef s hNext out
      exact ⟨s, reply, hServe, by rw [requests_stop hNext, List.flatMap_nil, List.append_nil]⟩

end Sailbot.Ui
