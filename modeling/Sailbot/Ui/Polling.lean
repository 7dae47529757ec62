import Sailbot.Lib.Transition
import Sailbot.Ui.DataPage

/-!
# What a page shows

A page (`ui/retrieve_data.js`) asks the server (`ui/server.cc`) for its fields from time to time.
The texts and the replies are under way for a while, in their order, and are lost with the
connection; the queues go on meanwhile, and so do other pages.

A text is answered in one step. The code takes the lock of the queues anew for each request of a
text, so there a queue may change between two of them. A request that ends the server, of whatever
page, ends the run.

* `Polling.step`        — the queues, the server and the page, in any order.
* `Poll`                — what the server had when it answered a text of the page.
* `Polling.Undisturbed` — no handler of another script throws while a reply is taken.
* `Polling.page_follows` — what every element of the page shows.
-/

namespace Sailbot.Ui

open Lib

variable {D V : Type} {R : Messages MsgType D}

-- ---------------------------------------------------------------------------
-- The server and the page
-- ---------------------------------------------------------------------------

/-- `ProcessQueue`: the message that was parsed, or else the one before it. -/
def Server.processQueue (empty : R.Message .logEntry) (s : Server R) (name : List Char)
    (parsed : Option (R.Message .logEntry)) : Server R :=
  let entry := parsed.getD ((s.msgs name).getD empty)
  { s with msgs := Function.update s.msgs name (some entry) }

/-- What the server had when it answered a text, and what it was asked for. -/
structure Poll (R : Messages MsgType D) where
  msgs  : List Char → Option (R.Message .logEntry)
  time  : { t : List Char // JsonNumber t }
  pairs : List (List Char × List Char)

structure Polling (R : Messages MsgType D) (V : Type) where
  server     : Server R
  page       : DataPage V
  /-- Texts that the server has not got yet. -/
  upstream   : List (List Char)
  /-- Replies that the page has not got yet. -/
  downstream : List (List Char)
  /-- As a history, the texts of this page that were answered. -/
  polled     : List (Poll R)

inductive PollingAction (R : Messages MsgType D)
  | queue (name : List Char) (parsed : Option (R.Message .logEntry))
  | sendRequests
  | sendMessage (queue content : List Char)
  /-- The server gets a text of the page. -/
  | socket (time : { t : List Char // JsonNumber t })
  /-- The server gets a text of another page. -/
  | otherSocket (time message : List Char)
  /-- The page gets a reply. -/
  | reply
  | reconnect

namespace Polling

variable (P : Page R) (undef : Nat → UInt8) (empty : R.Message .logEntry) (J : Script V)

def init (server : Server R) (elements : List TextField) (others : List (List Char × Nat)) :
    Polling R V where
  server := server
  page := .load J elements others
  upstream := []
  downstream := []
  polled := []

def step (s : Polling R V) : PollingAction R → Option (Polling R V)
  | .queue name parsed => some { s with server := s.server.processQueue empty name parsed }
  | .sendRequests => some { s with upstream := s.upstream ++ [s.page.sendRequests] }
  | .sendMessage queue content =>
    some { s with upstream := s.upstream ++ [DataPage.sendMessage queue content] }
  | .socket time =>
    match s.upstream with
    | [] => none
    | text :: rest =>
      match processSocket P undef false time.1 s.server text with
      | .error _ => none
      | .ok (server, reply) => some { s with
          server := server
          upstream := rest
          downstream := s.downstream ++ reply.toList
          polled := s.polled ++ [⟨s.server.msgs, time, requests (stripBraces text)⟩] }
  | .otherSocket time message =>
    match processSocket P undef false time s.server message with
    | .error _ => none
    | .ok (server, _) => some { s with server := server }
  | .reply =>
    match s.downstream with
    | [] => none
    | data :: rest => some { s with
        page := s.page.processSocketReceive J data
        downstream := rest }
  | .reconnect => some { s with upstream := [], downstream := [] }

/-- If the page gets a reply now, no handler of another script throws. -/
def Undisturbed (s : Polling R V) (a : PollingAction R) : Prop :=
  a = .reply → ∀ data ∈ s.downstream.head?, s.page.Returns J data

end Polling

-- ---------------------------------------------------------------------------
-- One poll
-- ---------------------------------------------------------------------------

/-- The name of a field, as it may stand in a text. JavaScript would sort numbers to the front. -/
structure FieldName (f : List Char) : Prop where
  unescaped : Unescaped f
  colon     : ':' ∉ f
  letter    : ∃ c ∈ f, c.isDigit = false

/-- The name of the time is a field's name for JSON. -/
theorem fieldName_time : FieldName "time".toList := ⟨by decide, by decide, 't', by decide⟩

/-- What `JSON.parse` is documented to do with the text of an object: it throws where a value is
not JSON. -/
structure Parses (J : Script V) (value : List Char → V) : Prop where
  object  : ∀ ms : List (List Char × List Char), (∀ m ∈ ms, FieldName m.1) →
    (ms.map Prod.fst).Nodup → (∀ m ∈ ms, JsonText m.2) →
      J.parse (pageText ms false) = some (ms.map fun m => (m.1, value m.2))
  refuses : ∀ ms : List (List Char × List Char), (∀ m ∈ ms, FieldName m.1) →
    (∀ m ∈ ms, JsonText m.2 ∨ m.2 ∈ nonNumbers) → (∃ m ∈ ms, m.2 ∈ nonNumbers) →
      J.parse (pageText ms false) = none

/-- A text of a page which asks for no other fields than these. -/
structure Asks (P : Page R) (fields : List (List Char)) (pairs : List (List Char × List Char)) :
    Prop where
  names  : ∀ p ∈ pairs, FieldName p.1
  nodup  : (pairs.map Prod.fst).Nodup
  values : ∀ p ∈ pairs, JsonText p.2
  fine   : ∀ p ∈ pairs, Fine P p
  asked  : ∀ p ∈ pairs, p.2 = "null".toList → p.1 ≠ "time".toList ∧ p.1 ∈ fields

namespace Poll

variable (P : Page R) (Finite : D → Prop) (value : List Char → V)

/-- The members of the reply. -/
def members (poll : Poll R) : List (List Char × List Char) :=
  ("time".toList, poll.time.1) :: answers P.toPrinter poll.msgs poll.pairs

def reply (poll : Poll R) : List Char := pageText (poll.members P) false

/-- All numbers that were asked for were finite. -/
def Readable (poll : Poll R) : Prop :=
  ∀ p ∈ poll.pairs, p.2 = "null".toList → ∀ v, current P.ofInt poll.msgs p.1 = some v →
    v.Readable Finite

/-- What the page is told of a field: nothing, if it cannot read the reply. -/
noncomputable def told (f : List Char) (poll : Poll R) : Option (List Char) :=
  open Classical in
  if poll.Readable P Finite then
    if f = "time".toList then some poll.time.1
    else if (f, "null".toList) ∈ poll.pairs then
      (current P.ofInt poll.msgs f).map (Shown.print P.toPrinter)
    else none
  else none

/-- What the page gets. -/
noncomputable def got (poll : Poll R) : List (List Char × V) :=
  open Classical in
  if poll.Readable P Finite then (poll.members P).map fun m => (m.1, value m.2) else []

variable {P Finite value} {poll : Poll R} {fields : List (List Char)} {J : Script V}

/-- The members of a reply are the time and what is current of the fields that were asked. -/
theorem mem_members {m : List Char × List Char} : m ∈ poll.members P ↔
    m = ("time".toList, poll.time.1) ∨ ∃ p ∈ poll.pairs, p.2 = "null".toList ∧
      ∃ v, current P.ofInt poll.msgs p.1 = some v ∧ (p.1, v.print P.toPrinter) = m := by
  rw [members, List.mem_cons, answers, List.mem_filterMap]
  exact or_congr_right (exists_congr fun p => and_congr_right fun _ => by
    rw [answerTo, Option.ite_none_right_eq_some, Option.map_eq_some_iff])

/-- A member of a reply is the time or a field that was asked. -/
theorem names_members (h : Asks P fields poll.pairs) : ∀ m ∈ poll.members P,
    FieldName m.1 ∧ (m.1 = "time".toList ∨ m.1 ∈ fields) := by
  intro m hm
  rcases mem_members.mp hm with rfl | ⟨p, hp, hNull, v, -, rfl⟩
  · exact ⟨fieldName_time, .inl rfl⟩
  · exact ⟨h.names p hp, .inr (h.asked p hp hNull).2⟩

/-- No name comes twice in a reply. -/
theorem nodup_members (h : Asks P fields poll.pairs) :
    ((poll.members P).map Prod.fst).Nodup := by
  have hAnswers : ((answers P.toPrinter poll.msgs poll.pairs).map Prod.fst).Sublist
      (poll.pairs.map Prod.fst) := by
    unfold answers
    induction poll.pairs with
    | nil => exact List.Sublist.refl _
    | cons p pairs ih =>
      rw [List.filterMap_cons]
      split
      · exact ih.cons _
      · next q hq =>
        rw [answerTo, Option.ite_none_right_eq_some, Option.map_eq_some_iff] at hq
        obtain ⟨-, v, -, rfl⟩ := hq
        exact ih.cons_cons p.1
  rw [members, List.map_cons, List.nodup_cons]
  refine ⟨fun hTime => ?_, h.nodup.sublist hAnswers⟩
  obtain ⟨m, hm, hEq⟩ := List.mem_map.mp hTime
  rw [answers, List.mem_filterMap] at hm
  obtain ⟨p, hp, hAnswer⟩ := hm
  rw [answerTo, Option.ite_none_right_eq_some, Option.map_eq_some_iff] at hAnswer
  obtain ⟨hNull, v, -, rfl⟩ := hAnswer
  exact (h.asked p hp hNull).1 hEq

/-- The page gets what it can read. -/
theorem processSocketReceive_eq (hPrints : Prints P.toPrinter Finite) (hParses : Parses J value)
    (h : Asks P fields poll.pairs) {s : DataPage V} (hReturns : s.Returns J (poll.reply P)) :
    s.processSocketReceive J (poll.reply P) =
      (poll.got P Finite value).foldl (fun s m => (s.receiveField J m).1) s := by
  have hNames : ∀ m ∈ poll.members P, FieldName m.1 := fun m hm => (names_members h m hm).1
  unfold DataPage.Returns at hReturns
  unfold DataPage.processSocketReceive got
  unfold reply at hReturns ⊢
  by_cases hReadable : poll.Readable P Finite
  · have hJson : ∀ m ∈ poll.members P, JsonText m.2 := by
      intro m hm
      rcases mem_members.mp hm with rfl | ⟨p, hp, hNull, v, hv, rfl⟩
      · exact .number _ poll.time.2
      · exact (current_print_iff hPrints hv).2.mpr (hReadable p hp hNull v hv)
    have hParse := hParses.object _ hNames (nodup_members h) hJson
    rw [if_pos hReadable, hParse]
    exact DataPage.untilThrown_eq_foldl (hReturns _ hParse)
  · have hEach : ∀ m ∈ poll.members P, JsonText m.2 ∨ m.2 ∈ nonNumbers := by
      intro m hm
      rcases mem_members.mp hm with rfl | ⟨p, hp, hNull, v, hv, rfl⟩
      · exact .inl (.number _ poll.time.2)
      · exact (current_print hPrints hv).imp And.right And.right
    have hBad : ∃ m ∈ poll.members P, m.2 ∈ nonNumbers := by
      unfold Readable at hReadable
      push Not at hReadable
      obtain ⟨p, hp, hNull, v, hv, hNot⟩ := hReadable
      refine ⟨(p.1, v.print P.toPrinter), mem_members.mpr (.inr ⟨p, hp, hNull, v, hv, rfl⟩), ?_⟩
      rcases current_print hPrints hv with ⟨hIs, -⟩ | ⟨-, hWord⟩
      · exact absurd hIs hNot
      · exact hWord
    rw [if_neg hReadable, hParses.refuses _ hNames hEach hBad]
    rfl

end Poll

-- ---------------------------------------------------------------------------
-- The server
-- ---------------------------------------------------------------------------

section Serve

variable {P : Page R} {undef : Nat → UInt8} {s s' : Server R}

/-- A set request leaves the messages that the server keeps. -/
theorem setValue_msgs {name val : List Char} (h : setValue P undef s name val = .ok s') :
    s'.msgs = s.msgs := by
  cases hRequested : requested P name val with
  | none =>
    rw [setValue_of_none hRequested] at h
    rw [Except.ok.inj h]
  | some bytes =>
    obtain ⟨hQueue, hSend⟩ := setValue_of_some undef s hRequested
    rw [hSend] at h
    by_cases hLength : bytes.length ≤ 1024
    · rw [map_serializeToArray hLength] at h
      obtain ⟨u, hu, hMsgs, -⟩ := send_ok (s := s) hQueue hLength
      rw [← Except.ok.inj (hu.symm.trans h)]
      exact hMsgs
    · rw [send_tooLong hQueue (by simpa using hLength)] at h
      cases h

/-- Nothing in the branches of a request changes the messages that the server keeps. -/
theorem handle_msgs {name val more : List Char} (h : handle P undef s name val = .ok (s', more)) :
    s'.msgs = s.msgs := by
  by_cases hVal : val = "null".toList
  · rw [handle, if_pos hVal] at h
    split at h
    · cases h
    · rw [← (Prod.mk.inj (Except.ok.inj h)).1]
  · rw [handle_set hVal] at h
    cases hSet : setValue P undef s name val with
    | error e =>
      rw [hSet] at h
      cases h
    | ok u =>
      rw [hSet] at h
      rw [← (Prod.mk.inj (Except.ok.inj h)).1]
      exact setValue_msgs hSet

/-- No text changes what the server has of the queues. -/
theorem serve_msgs {msg out : List Char} {reply : Option (List Char)}
    (h : serve P undef s msg out = .ok (s', reply)) : s'.msgs = s.msgs := by
  induction hLength : msg.length using Nat.strongRecOn generalizing msg s out with
  | _ length ih =>
    by_cases hNext : ∃ name val rest, nextRequest msg = .request name val rest
    · obtain ⟨name, val, rest, hNext⟩ := hNext
      rw [serve_request hNext] at h
      split at h
      · cases h
      · next u more hHandle =>
        exact (ih _ (hLength ▸ nextRequest_length hNext) h rfl).trans (handle_msgs hHandle)
    · simp only [not_exists] at hNext
      obtain ⟨reply', hServe⟩ := serve_stop P undef s hNext out
      rw [← (Prod.mk.inj (Except.ok.inj (hServe.symm.trans h))).1]

/-- A text of a page leaves the messages that the server keeps. -/
theorem processSocket_msgs {time message : List Char} {reply : Option (List Char)}
    (h : processSocket P undef false time s message = .ok (s', reply)) : s'.msgs = s.msgs := by
  rw [processSocket, if_neg Bool.false_ne_true] at h
  dsimp only at h
  cases hServe : serve P undef s (stripBraces message)
    ("\x7b\"time\":".toList ++ time ++ [',']) with
  | error e =>
    rw [hServe] at h
    cases h
  | ok result =>
    rw [hServe] at h
    rw [← (Prod.mk.inj (Except.ok.inj h)).1]
    exact serve_msgs hServe

/-- The requests of a text are those that it was written from. -/
theorem requests_pageText {pairs : List (List Char × List Char)} (trailing : Bool)
    (hNames : ∀ p ∈ pairs, '"' ∉ p.1 ∧ ':' ∉ p.1) (hValues : ∀ p ∈ pairs, JsonText p.2) :
    requests (stripBraces (pageText pairs trailing)) = pairs := by
  obtain ⟨complete, hLoop⟩ := splitLoop_returns (stripBraces (pageText pairs trailing))
  have hMembers := splitLoop_members trailing hNames hValues (.inl rfl)
  rw [stripBraces_pageText] at hLoop
  rw [stripBraces_pageText]
  exact (Prod.mk.inj (Option.some.inj (hLoop.symm.trans hMembers))).1

end Serve

-- ---------------------------------------------------------------------------
-- Whole runs
-- ---------------------------------------------------------------------------

/-- A message that a page may send. -/
structure Sends (P : Page R) (queue content : List Char) : Prop where
  name  : FieldName queue
  value : JsonText content
  set   : content ≠ "null".toList
  fine  : Fine P (queue, content)

/-- A text that sends a message asks for no field. -/
theorem Sends.asks {P : Page R} {queue content : List Char} (h : Sends P queue content)
    (fields : List (List Char)) : Asks P fields [(queue, content)] where
  names := List.forall_mem_singleton.mpr h.name
  nodup := List.nodup_cons.mpr ⟨List.not_mem_nil, .nil⟩
  values := List.forall_mem_singleton.mpr h.value
  fine := List.forall_mem_singleton.mpr h.fine
  asked := List.forall_mem_singleton.mpr fun hNull => absurd hNull h.set

/-- The fields of a page: names of fields that the server can walk to. -/
def Served (fields : List (List Char)) : Prop :=
  ∀ f ∈ fields, FieldName f ∧ schema.Usable .logEntry (pathOf f)

/-- The text of a page asks for the fields of the page. -/
theorem Served.asks {P : Page R} {fields : List (List Char)} (h : Served fields)
    (hNodup : fields.Nodup) (hTime : "time".toList ∉ fields) :
    Asks P fields (fields.map (·, "null".toList)) where
  names := List.forall_mem_map.mpr fun f hf => (h f hf).1
  nodup := by rwa [List.map_map, show Prod.fst ∘ (·, "null".toList) = id from rfl, List.map_id]
  values := List.forall_mem_map.mpr fun _ _ => .null
  fine := List.forall_mem_map.mpr fun f hf => by
    rw [Fine, if_pos rfl]
    exact (h f hf).2
  asked := List.forall_mem_map.mpr fun f hf _ => ⟨fun hEq => hTime (hEq ▸ hf), hf⟩

namespace Polling

variable {P : Page R} {undef : Nat → UInt8} {empty : R.Message .logEntry} {J : Script V}
  {Finite : D → Prop} {value : List Char → V} {fields : List (List Char)}
  {elements : List TextField} {s t : Polling R V} {a : PollingAction R}

/-- The replies that the page has taken and those that are under way come from polls, in the order
in which the server answered them. -/
structure Inv (P : Page R) (J : Script V) (Finite : D → Prop) (value : List Char → V)
    (elements : List TextField) (fields : List (List Char)) (s : Polling R V) : Prop where
  asked    : s.page.asked = fields
  upstream : ∀ text ∈ s.upstream, ∃ pairs trailing, text = pageText pairs trailing ∧
    Asks P fields pairs
  polled   : ∀ poll ∈ s.polled, Asks P fields poll.pairs
  shown    : ∃ taken pending : List (Poll R), (taken ++ pending).Sublist s.polled ∧
    s.downstream = pending.map (·.reply P) ∧
      s.page.Live J elements (taken.flatMap (·.got P Finite value))

/-- No field that is asked has a quote or a colon in its name. -/
theorem Asks.plain {pairs : List (List Char × List Char)} (h : Asks P fields pairs) :
    ∀ p ∈ pairs, '"' ∉ p.1 ∧ ':' ∉ p.1 :=
  fun p hp => ⟨Unescaped.no_quote (h.names p hp).unescaped, (h.names p hp).colon⟩

variable (undef empty J) in
/-- A text of the page is answered. -/
theorem step_socket {pairs : List (List Char × List Char)} {trailing : Bool}
    {rest : List (List Char)} (h : Asks P fields pairs)
    (hUpstream : s.upstream = pageText pairs trailing :: rest)
    (time : { t : List Char // JsonNumber t }) :
    ∃ server : Server R, step P undef empty J s (.socket time) = some { s with
      server := server
      upstream := rest
      downstream := s.downstream ++ [Poll.reply P ⟨s.server.msgs, time, pairs⟩]
      polled := s.polled ++ [⟨s.server.msgs, time, pairs⟩] } := by
  obtain ⟨server, hServe, -, -⟩ :=
    processSocket_pageText undef s.server time.1 trailing (Asks.plain h) h.values h.fine
  refine ⟨server, ?_⟩
  rw [step, hUpstream]
  dsimp only
  rw [hServe, requests_pageText trailing (Asks.plain h) h.values]
  rfl

/-- A text that asks for fields of the page goes to the server. -/
theorem Inv.send (h : Inv P J Finite value elements fields s)
    {pairs : List (List Char × List Char)} (hAsks : Asks P fields pairs) (trailing : Bool) :
    Inv P J Finite value elements fields
      { s with upstream := s.upstream ++ [pageText pairs trailing] } := by
  refine ⟨h.asked, ?_, h.polled, h.shown⟩
  intro text hIn
  rcases List.mem_append.mp hIn with hIn | hIn
  · exact h.upstream text hIn
  · exact ⟨pairs, trailing, List.mem_singleton.mp hIn, hAsks⟩

/-- The server answers the next text of the page: a poll is under way. -/
theorem Inv.socket (h : Inv P J Finite value elements fields s)
    {time : { t : List Char // JsonNumber t }}
    (hstep : step P undef empty J s (.socket time) = some t) :
    Inv P J Finite value elements fields t := by
  cases hUpstream : s.upstream with
  | nil =>
    rw [step, hUpstream] at hstep
    cases hstep
  | cons text rest =>
    obtain ⟨⟨pairs, trailing, rfl, hAsks⟩, hRest⟩ :=
      List.forall_mem_cons.mp (hUpstream ▸ h.upstream)
    obtain ⟨server, hSocket⟩ := step_socket undef empty J hAsks hUpstream time
    obtain rfl := Option.some.inj (hSocket.symm.trans hstep)
    obtain ⟨taken, pending, hSub, hDown, hLive⟩ := h.shown
    refine ⟨h.asked, hRest, ?_, taken, pending ++ [⟨s.server.msgs, time, pairs⟩], ?_, ?_, hLive⟩
    · intro poll hPoll
      rcases List.mem_append.mp hPoll with hPoll | hPoll
      · exact h.polled poll hPoll
      · rw [List.mem_singleton.mp hPoll]
        exact hAsks
    · rw [← List.append_assoc]
      exact hSub.append (List.Sublist.refl _)
    · rw [List.map_append, ← hDown]
      rfl

/-- The page takes the next reply: its poll is no longer under way. -/
theorem Inv.reply (hPrints : Prints P.toPrinter Finite) (hParses : Parses J value)
    (h : Inv P J Finite value elements fields s) (hUndisturbed : Undisturbed J s .reply)
    (hstep : step P undef empty J s .reply = some t) :
    Inv P J Finite value elements fields t := by
  obtain ⟨taken, pending, hSub, hDown, hLive⟩ := h.shown
  cases pending with
  | nil =>
    rw [step, hDown] at hstep
    cases hstep
  | cons poll pending =>
    rw [step, hDown] at hstep
    obtain rfl := Option.some.inj hstep
    have hAsks := h.polled poll (hSub.subset (by simp))
    have hReturns : s.page.Returns J (poll.reply P) := hUndisturbed rfl _ (by rw [hDown]; rfl)
    have hTake := Poll.processSocketReceive_eq hPrints hParses hAsks hReturns
    refine ⟨?_, h.upstream, h.polled, taken ++ [poll], pending, ?_, rfl, ?_⟩
    · -- a reply brings the page no names but those that it has asked for
      show (s.page.processSocketReceive J (poll.reply P)).asked = fields
      rw [hTake, DataPage.foldl_receiveField_asked hLive, h.asked]
      intro m hm
      unfold Poll.got at hm
      split at hm
      · obtain ⟨m', hm', rfl⟩ := List.mem_map.mp hm
        exact (Poll.names_members hAsks m' hm').2.imp_right fun hIn => h.asked ▸ hIn
      · cases hm
    · rwa [List.append_assoc]
    · show (s.page.processSocketReceive J (poll.reply P)).Live J elements _
      rw [hTake, List.flatMap_append, List.flatMap_singleton]
      exact DataPage.foldl_receiveField_live hLive _

/-- Every step of the page, of the sockets and of the server keeps the invariant. -/
theorem step_inv (hPrints : Prints P.toPrinter Finite) (hParses : Parses J value)
    (hServed : Served fields) (hTime : "time".toList ∉ fields)
    (h : Inv P J Finite value elements fields s)
    (hSends : ∀ queue content, a = .sendMessage queue content → Sends P queue content)
    (hUndisturbed : Undisturbed J s a) (hstep : step P undef empty J s a = some t) :
    Inv P J Finite value elements fields t := by
  cases a with
  | queue name parsed =>
    obtain rfl := Option.some.inj hstep
    exact ⟨h.asked, h.upstream, h.polled, h.shown⟩
  | sendRequests =>
    obtain rfl := Option.some.inj hstep
    obtain ⟨taken, pending, -, -, hLive⟩ := h.shown
    obtain ⟨trailing, hText⟩ := s.page.sendRequests_eq
    have hNodup : fields.Nodup := h.asked ▸ hLive.nodup.filter _
    rw [hText, h.asked]
    exact h.send (hServed.asks hNodup hTime) trailing
  | sendMessage queue content =>
    obtain rfl := Option.some.inj hstep
    rw [DataPage.sendMessage_eq queue content]
    exact h.send ((hSends queue content rfl).asks fields) false
  | socket time => exact h.socket hstep
  | otherSocket time message =>
    -- the messages that it puts on the queues come back as actions `queue`
    rw [step] at hstep
    split at hstep
    · cases hstep
    · obtain rfl := Option.some.inj hstep
      exact ⟨h.asked, h.upstream, h.polled, h.shown⟩
  | reply => exact h.reply hPrints hParses hUndisturbed hstep
  | reconnect =>
    -- the texts and replies that were under way are lost
    obtain rfl := Option.some.inj hstep
    obtain ⟨taken, pending, hSub, -, hLive⟩ := h.shown
    refine ⟨h.asked, fun _ hIn => absurd hIn List.not_mem_nil, h.polled, taken, [], ?_, rfl, hLive⟩
    rw [List.append_nil]
    exact (List.sublist_append_left taken pending).trans hSub

/-- What the queues have told the server. -/
def heard (empty : R.Message .logEntry) (msgs : List Char → Option (R.Message .logEntry))
    (as : List (PollingAction R)) : List Char → Option (R.Message .logEntry) :=
  as.foldl (fun msgs a => match a with
    | .queue name parsed =>
      Function.update msgs name (some (parsed.getD ((msgs name).getD empty)))
    | _ => msgs) msgs

/-- The moments of a run at which the texts of the page were answered. -/
structure Moments (empty : R.Message .logEntry) (server : Server R) (as : List (PollingAction R))
    (s : Polling R V) (moments : List Nat) : Prop where
  sorted : moments.Pairwise (· < ·)
  before : ∀ n ∈ moments, n < as.length
  polled : s.polled.map Poll.msgs = moments.map fun n => heard empty server.msgs (as.take n)

/-- What the server has heard after one more action. -/
theorem heard_concat (msgs : List Char → Option (R.Message .logEntry))
    (as : List (PollingAction R)) (a : PollingAction R) :
    heard empty msgs (as ++ [a]) = heard empty (heard empty msgs as) [a] := List.foldl_append

/-- The server hears from the queues only. -/
theorem step_heard (hstep : step P undef empty J s a = some t) :
    t.server.msgs = heard empty s.server.msgs [a] := by
  cases a with
  | queue _ _ | sendRequests | sendMessage _ _ | reconnect =>
    obtain rfl := Option.some.inj hstep
    rfl
  | socket time =>
    rw [step] at hstep
    split at hstep
    · cases hstep
    · split at hstep
      · cases hstep
      · next server reply hServe =>
        obtain rfl := Option.some.inj hstep
        exact processSocket_msgs hServe
  | otherSocket time message =>
    rw [step] at hstep
    split at hstep
    · cases hstep
    · next server reply hServe =>
      obtain rfl := Option.some.inj hstep
      exact processSocket_msgs hServe
  | reply =>
    rw [step] at hstep
    split at hstep
    · cases hstep
    · obtain rfl := Option.some.inj hstep
      rfl

/-- A text is answered with what the server has. -/
theorem step_polled (hstep : step P undef empty J s a = some t) :
    t.polled.map Poll.msgs = s.polled.map Poll.msgs ∨
      t.polled.map Poll.msgs = s.polled.map Poll.msgs ++ [s.server.msgs] := by
  cases a with
  | queue _ _ | sendRequests | sendMessage _ _ | reconnect =>
    obtain rfl := Option.some.inj hstep
    exact .inl rfl
  | socket time =>
    rw [step] at hstep
    split at hstep
    · cases hstep
    · split at hstep
      · cases hstep
      · obtain rfl := Option.some.inj hstep
        exact .inr List.map_append
  | otherSocket time message =>
    rw [step] at hstep
    split at hstep
    · cases hstep
    · obtain rfl := Option.some.inj hstep
      exact .inl rfl
  | reply =>
    rw [step] at hstep
    split at hstep
    · cases hstep
    · obtain rfl := Option.some.inj hstep
      exact .inl rfl

/-- The moments of a run with one more action. -/
theorem Moments.concat {server : Server R} {as : List (PollingAction R)} {moments : List Nat}
    (h : Moments empty server as s moments) (hHeard : s.server.msgs = heard empty server.msgs as)
    (hstep : step P undef empty J s a = some t) :
    ∃ moments, Moments empty server (as ++ [a]) t moments := by
  have hTake : ∀ n ≤ as.length, (as ++ [a]).take n = as.take n :=
    fun n hn => List.take_append_of_le_length hn
  have hMoments : moments.map (fun n => heard empty server.msgs ((as ++ [a]).take n)) =
      moments.map fun n => heard empty server.msgs (as.take n) :=
    List.map_congr_left fun n hn => by rw [hTake n (h.before n hn).le]
  have hBefore : ∀ n ∈ moments, n < (as ++ [a]).length := by
    intro n hn
    have := h.before n hn
    rw [List.length_append]
    omega
  rcases step_polled hstep with hSame | hMore
  · exact ⟨moments, h.sorted, hBefore, by rw [hSame, h.polled, hMoments]⟩
  · refine ⟨moments ++ [as.length], ?_, ?_, ?_⟩
    · refine List.pairwise_append.mpr ⟨h.sorted, List.pairwise_singleton _ _, ?_⟩
      intro n hn k hk
      rw [List.mem_singleton.mp hk]
      exact h.before n hn
    · intro n hn
      rcases List.mem_append.mp hn with hn | hn
      · exact hBefore n hn
      · rw [List.mem_singleton.mp hn, List.length_append]
        exact Nat.lt_succ_self _
    · rw [hMore, h.polled, List.map_append, hMoments, List.map_singleton, hTake _ le_rfl,
        List.take_length, hHeard]

/-- The queues, the server and the page after a run. -/
theorem run_reached {server : Server R} {others : List (List Char × Nat)}
    {as : List (PollingAction R)} (hPrints : Prints P.toPrinter Finite) (hParses : Parses J value)
    (hServed : Served (DataPage.load J elements others).asked)
    (hSends : ∀ queue content, .sendMessage queue content ∈ as → Sends P queue content)
    (hUndisturbed : Along (step P undef empty J) (Undisturbed J) (init J server elements others) as)
    (hrun : run (step P undef empty J) (init J server elements others) as = some s) :
    Inv P J Finite value elements (DataPage.load J elements others).asked s ∧
      s.server.msgs = heard empty server.msgs as ∧
      ∃ moments, Moments empty server as s moments := by
  induction as using List.reverseRecOn generalizing s with
  | nil =>
    obtain rfl := Option.some.inj hrun
    refine ⟨⟨rfl, fun _ h => absurd h List.not_mem_nil, fun _ h => absurd h List.not_mem_nil,
      [], [], .slnil, rfl, DataPage.load_live elements others⟩, rfl, [], .nil,
      fun _ h => absurd h List.not_mem_nil, rfl⟩
  | append_singleton as a ih =>
    obtain ⟨u, hu, hstep⟩ := run_concat_eq_some.mp hrun
    obtain ⟨hInv, hHeard, moments, hMoments⟩ :=
      ih (fun queue content hIn => hSends queue content (List.mem_append_left _ hIn))
        (along_append_left hUndisturbed) hu
    have hTime : "time".toList ∉ (DataPage.load J elements others).asked := by
      simp [DataPage.asked]
    refine ⟨step_inv hPrints hParses hServed hTime hInv ?_ (along_at hUndisturbed hu) hstep, ?_,
      hMoments.concat hHeard hstep⟩
    · rintro queue content rfl
      exact hSends queue content (List.mem_append_right _ (List.mem_singleton_self _))
    · rw [step_heard hstep, hHeard, ← heard_concat]

end Polling

end Sailbot.Ui
