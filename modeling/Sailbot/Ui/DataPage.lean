import Mathlib.Logic.Function.Basic
import Sailbot.Lib.Latest
import Sailbot.Ui.Reply

/-!
# The fields of a page

`ui/retrieve_data.js`: a page keeps what the server has told it of the fields that its elements
name, asks for all of them from time to time, and writes what it gets into the elements. What
JavaScript does with the texts and the values is a parameter.

Every page also registers the handlers of the map (`initializeBoatHandlers`), behind those of its
elements. They write no element of the class `data_output`, but they may change the values that
they are given (`pathObstacleListener` closes the polygons), and they throw where the page has no
map or a value is not what they expect. What is thrown ends `processSocketReceive`: the fields
behind it in the reply are not updated. Which of them throw, and what they do to the values, is a
parameter too.

* `DataPage.load`                  — the page, once it is loaded.
* `DataPage.processSocketReceive`  — a reply of the server.
* `DataPage.sendRequests`          — what the page asks for.
* `DataPage.Live`                  — the page shows what it was told last.
-/

namespace Sailbot.Ui

open Lib

/-- `ops`. -/
inductive Op
  | toDeg
  deriving DecidableEq, Repr

/-- An element of the class `data_output`; `html` is what it shows in the beginning. -/
structure TextField where
  field : List Char
  op    : Option Op
  html  : List Char

/-- What the page uses of JavaScript and of other scripts. -/
structure Script (V : Type) where
  null      : V
  /-- `JSON.parse` of the text of an object; not defined where that throws. -/
  parse     : List Char → Option (List (List Char × V))
  stringify : V → List Char
  toDeg     : V → V
  /-- What the handler `i` of another script leaves of the values, and whether it returns. -/
  other     : Nat → (List Char → V) → (List Char → V) × Bool

variable {V : Type}

def Script.apply (J : Script V) : Option Op → V → V
  | none, v => v
  | some .toDeg, v => J.toDeg v

/-- What an element shows of a value. -/
def TextField.show (e : TextField) (J : Script V) (v : V) : List Char :=
  J.stringify (J.apply e.op v)

inductive Handler
  /-- `updateFieldHandler`. -/
  | update (field : List Char)
  | other (i : Nat)
  deriving DecidableEq

/-- `fields`, of which `names` are the names in their order, and what the elements show. -/
structure DataPage (V : Type) where
  names      : List (List Char)
  value      : List Char → V
  handlers   : List Char → List Handler
  textFields : List Char → List Nat
  elements   : List TextField
  innerHTML  : Nat → List Char

namespace DataPage

variable (J : Script V)

def tryInitField (s : DataPage V) (field : List Char) : DataPage V :=
  if s.names.contains field then s
  else { s with
    names := s.names ++ [field]
    value := Function.update s.value field J.null
    handlers := Function.update s.handlers field []
    textFields := Function.update s.textFields field [] }

def addHandler (s : DataPage V) (field : List Char) (handler : Handler) : DataPage V :=
  let s := s.tryInitField J field
  { s with handlers := Function.update s.handlers field (s.handlers field ++ [handler]) }

/-- The body of `registerFieldHandlers`, for the element `i`. -/
def registerFieldHandler (s : DataPage V) (e : TextField) (i : Nat) : DataPage V :=
  let s := s.tryInitField J e.field
  let s := s.addHandler J e.field (.update e.field)
  { s with textFields := Function.update s.textFields e.field (s.textFields e.field ++ [i]) }

/-- The page with its elements, before anything is registered. -/
def blank (elements : List TextField) : DataPage V where
  names := []
  value := fun _ => J.null
  handlers := fun _ => []
  textFields := fun _ => []
  elements := elements
  innerHTML := fun i => elements[i]?.elim [] TextField.html

/-- `registerFieldHandlers`, and then what other scripts register: a field with a handler. -/
def load (elements : List TextField) (others : List (List Char × Nat)) : DataPage V :=
  others.foldl (fun s o => s.addHandler J o.1 (.other o.2))
    (elements.zipIdx.foldl (fun s e => s.registerFieldHandler J e.1 e.2) (blank J elements))

/-- One element, in `updateFieldHandler`. -/
def write (s : DataPage V) (v : V) (i : Nat) : DataPage V := { s with
  innerHTML := match s.elements[i]? with
    | none => s.innerHTML
    | some e => Function.update s.innerHTML i (e.show J v) }

def updateFieldHandler (s : DataPage V) (field : List Char) : DataPage V :=
  let s := s.tryInitField J field
  (s.textFields field).foldl (fun t i => t.write J (s.value field) i) s

/-- A handler is called; the second component says whether it returns. -/
def call (s : DataPage V) : Handler → DataPage V × Bool
  | .update field => (s.updateFieldHandler J field, true)
  | .other i => ({ s with value := (J.other i s.value).1 }, (J.other i s.value).2)

/-- A loop that is left where its body throws. -/
def untilThrown {α : Type} (body : DataPage V → α → DataPage V × Bool) :
    DataPage V → List α → DataPage V × Bool
  | s, [] => (s, true)
  | s, a :: as => if (body s a).2 then untilThrown body (body s a).1 as else ((body s a).1, false)

/-- One field of a reply. -/
def receiveField (s : DataPage V) (m : List Char × V) : DataPage V × Bool :=
  let s := s.tryInitField J m.1
  let s := { s with value := Function.update s.value m.1 m.2 }
  untilThrown (call J) s (s.handlers m.1)

def processSocketReceive (s : DataPage V) (data : List Char) : DataPage V :=
  match J.parse data with
  | none => s
  | some msg => (untilThrown (receiveField J) s msg).1

/-- No handler throws in a reply that can be read. -/
def Returns (s : DataPage V) (data : List Char) : Prop :=
  ∀ msg, J.parse data = some msg → (untilThrown (receiveField J) s msg).2 = true

/-- The fields that are asked for. -/
def asked (s : DataPage V) : List (List Char) := s.names.filter (· ≠ "time".toList)

/-- The text of `sendRequests`; the comma behind the last name stays. -/
def sendRequests (s : DataPage V) : List Char :=
  '{' :: (s.asked.flatMap (fun f => jsonMember f "null".toList ++ [',']) ++ ['}'])

/-- The text of `sendMessage`. -/
def sendMessage (queue content : List Char) : List Char :=
  '{' :: (jsonMember queue content ++ ['}'])

-- ---------------------------------------------------------------------------
-- How the elements hang on the fields
-- ---------------------------------------------------------------------------

variable {J} {s t : DataPage V} {field : List Char} {elements : List TextField} {e e' : TextField}
  {i j : Nat}

/-- What is in the list of a field after something was appended to one. -/
theorem mem_update_append {ι α : Type} [DecidableEq ι] {h : ι → List α} {k f : ι} {x y : α} :
    x ∈ Function.update h f (h f ++ [y]) k ↔ x ∈ h k ∨ (k = f ∧ x = y) := by
  by_cases hk : k = f
  · subst hk
    simp
  · simp [hk]

/-- What is in the list of a field after one was emptied. -/
theorem mem_update_nil {ι α : Type} [DecidableEq ι] {h : ι → List α} {k f : ι} {x : α} :
    x ∈ Function.update h f [] k ↔ k ≠ f ∧ x ∈ h k := by
  by_cases hk : k = f
  · subst hk
    simp
  · simp [hk]

/-- The elements of a field are those that name it. -/
structure Wired (elements : List TextField) (s : DataPage V) : Prop where
  same  : s.elements = elements
  nodup : s.names.Nodup
  texts : ∀ f i, i ∈ s.textFields f → ∃ e : TextField, elements[i]? = some e ∧ e.field = f

/-- There are no handlers but those that update their field. -/
def Updates (s : DataPage V) : Prop := ∀ f h, h ∈ s.handlers f → h = .update f

/-- A field is updated before the handlers of other scripts are called. -/
def Ordered (s : DataPage V) : Prop :=
  ∀ f, ∃ us os, s.handlers f = us ++ os ∧ (∀ h ∈ us, h = .update f) ∧
    ∀ h ∈ os, ∃ i, h = Handler.other i

/-- Where there are no handlers of other scripts, none comes before an update. -/
theorem Updates.ordered (h : s.Updates) : s.Ordered :=
  fun f => ⟨s.handlers f, [], (List.append_nil _).symm, h f, fun _ h => absurd h List.not_mem_nil⟩

/-- The element is updated with its field. -/
structure Registered (s : DataPage V) (e : TextField) (i : Nat) : Prop where
  name    : e.field ∈ s.names
  handler : .update e.field ∈ s.handlers e.field
  text    : i ∈ s.textFields e.field

/-- What a step leaves of the wires. -/
structure SameWires (s t : DataPage V) : Prop where
  elements   : t.elements = s.elements
  names      : t.names = s.names
  handlers   : t.handlers = s.handlers
  textFields : t.textFields = s.textFields

/-- What leaves the wires leaves them right. -/
theorem SameWires.wired (h : SameWires s t) (hWired : s.Wired elements) : t.Wired elements :=
  ⟨h.elements.trans hWired.same, h.names ▸ hWired.nodup, h.textFields ▸ hWired.texts⟩

/-- A page with the same wires has its fields in order too. -/
theorem SameWires.ordered (h : SameWires s t) (hOrdered : s.Ordered) : t.Ordered := by
  intro f
  rw [h.handlers]
  exact hOrdered f

/-- It has the same handlers. -/
theorem SameWires.registered (h : SameWires s t) (hRegistered : s.Registered e i) :
    t.Registered e i :=
  ⟨h.names ▸ hRegistered.name, h.handlers ▸ hRegistered.handler,
    h.textFields ▸ hRegistered.text⟩

/-- Two steps that leave the wires. -/
theorem SameWires.trans {u : DataPage V} (h : SameWires s t) (h' : SameWires t u) :
    SameWires s u :=
  ⟨h'.elements.trans h.elements, h'.names.trans h.names, h'.handlers.trans h.handlers,
    h'.textFields.trans h.textFields⟩

/-- Nothing changes the wires. -/
theorem sameWires_refl (s : DataPage V) : SameWires s s := ⟨rfl, rfl, rfl, rfl⟩

/-- A field that the page has is not touched. -/
theorem tryInitField_of_mem (h : field ∈ s.names) : s.tryInitField J field = s :=
  if_pos (List.contains_iff_mem.mpr h)

/-- After `tryInitField`, the page has the field. -/
theorem mem_tryInitField (s : DataPage V) (field : List Char) :
    field ∈ (s.tryInitField J field).names := by
  unfold tryInitField
  split
  case isTrue h => exact List.contains_iff_mem.mp h
  case isFalse => exact List.mem_append_right _ (List.mem_singleton_self _)

/-- A new field has no elements, as no element names it yet. -/
theorem Wired.tryInitField (h : s.Wired elements) (field : List Char) :
    (s.tryInitField J field).Wired elements := by
  unfold DataPage.tryInitField
  split
  case isTrue => exact h
  case isFalse hOld =>
    have hNew := mt List.contains_iff_mem.mpr hOld
    refine ⟨h.same, ?_, ?_⟩
    · exact List.nodup_append.mpr ⟨h.nodup, List.pairwise_singleton _ _,
        fun f hf g hg hEq => hNew (List.mem_singleton.mp hg ▸ hEq ▸ hf)⟩
    · intro f i hi
      exact h.texts f i (mem_update_nil.mp hi).2

/-- A new field has no handlers. -/
theorem Updates.tryInitField (h : s.Updates) (field : List Char) :
    (s.tryInitField J field).Updates := by
  unfold DataPage.tryInitField
  split
  case isTrue => exact h
  case isFalse => exact fun f g hg => h f g (mem_update_nil.mp hg).2

/-- A new field has no handlers in the wrong order. -/
theorem Ordered.tryInitField (h : s.Ordered) (field : List Char) :
    (s.tryInitField J field).Ordered := by
  unfold DataPage.tryInitField
  split
  case isTrue => exact h
  case isFalse =>
    intro f
    by_cases hSame : f = field
    · subst hSame
      exact ⟨[], [], Function.update_self .., by simp, by simp⟩
    · obtain ⟨us, os, hEq, hBoth⟩ := h f
      exact ⟨us, os, (Function.update_of_ne hSame ..).trans hEq, hBoth⟩

/-- A field that is touched anew is not that of an element which is registered. -/
theorem Registered.tryInitField (h : s.Registered e i) (field : List Char) :
    (s.tryInitField J field).Registered e i := by
  unfold DataPage.tryInitField
  split
  case isTrue => exact h
  case isFalse hOld =>
    have hNew := mt List.contains_iff_mem.mpr hOld
    have hOther : e.field ≠ field := fun hEq => hNew (hEq ▸ h.name)
    exact ⟨List.mem_append_left _ h.name, mem_update_nil.mpr ⟨hOther, h.handler⟩,
      mem_update_nil.mpr ⟨hOther, h.text⟩⟩

/-- An element is registered with one more handler and one more place to write to. -/
theorem registerFieldHandler_eq (s : DataPage V) (e : TextField) (i : Nat) :
    s.registerFieldHandler J e i =
      { s.tryInitField J e.field with
        handlers := Function.update (s.tryInitField J e.field).handlers e.field
          ((s.tryInitField J e.field).handlers e.field ++ [.update e.field])
        textFields := Function.update (s.tryInitField J e.field).textFields e.field
          ((s.tryInitField J e.field).textFields e.field ++ [i]) } := by
  unfold registerFieldHandler addHandler
  dsimp only
  rw [tryInitField_of_mem (mem_tryInitField s e.field)]

/-- The element is put down for the field that it names. -/
theorem Wired.registerFieldHandler (h : s.Wired elements) (hAt : elements[i]? = some e) :
    (s.registerFieldHandler J e i).Wired elements := by
  have hInit := h.tryInitField (J := J) e.field
  rw [registerFieldHandler_eq]
  refine ⟨hInit.same, hInit.nodup, ?_⟩
  intro f j hj
  rcases mem_update_append.mp hj with hj | ⟨rfl, rfl⟩
  · exact hInit.texts f j hj
  · exact ⟨e, hAt, rfl⟩

/-- The handler of an element updates its own field. -/
theorem Updates.registerFieldHandler (h : s.Updates) (e : TextField) (i : Nat) :
    (s.registerFieldHandler J e i).Updates := by
  have hInit := h.tryInitField (J := J) e.field
  rw [registerFieldHandler_eq]
  intro f g hg
  rcases mem_update_append.mp hg with hg | ⟨rfl, rfl⟩
  · exact hInit f g hg
  · rfl

/-- After that the element is registered. -/
theorem registerFieldHandler_registered (s : DataPage V) (e : TextField) (i : Nat) :
    (s.registerFieldHandler J e i).Registered e i := by
  rw [registerFieldHandler_eq]
  exact ⟨mem_tryInitField s e.field, mem_update_append.mpr (.inr ⟨rfl, rfl⟩),
    mem_update_append.mpr (.inr ⟨rfl, rfl⟩)⟩

/-- Another element stays where it is. -/
theorem Registered.registerFieldHandler (h : s.Registered e i) (e' : TextField) (j : Nat) :
    (s.registerFieldHandler J e' j).Registered e i := by
  have hInit := h.tryInitField (J := J) e'.field
  rw [registerFieldHandler_eq]
  exact ⟨hInit.name, mem_update_append.mpr (.inl hInit.handler),
    mem_update_append.mpr (.inl hInit.text)⟩

/-- A handler of another script comes behind those that are there. -/
theorem Ordered.addHandler (h : s.Ordered) (field : List Char) (i : Nat) :
    (s.addHandler J field (.other i)).Ordered := by
  intro f
  obtain ⟨us, os, hEq, hUpdates, hOthers⟩ := h.tryInitField (J := J) field f
  by_cases hSame : f = field
  · subst hSame
    refine ⟨us, os ++ [.other i], ?_, hUpdates, ?_⟩
    · rw [DataPage.addHandler, ← List.append_assoc, ← hEq]
      exact Function.update_self ..
    · intro g hg
      rcases List.mem_append.mp hg with hg | hg
      · exact hOthers g hg
      · exact ⟨i, List.mem_singleton.mp hg⟩
  · exact ⟨us, os, (Function.update_of_ne hSame ..).trans hEq, hUpdates, hOthers⟩

/-- One more handler takes none away. -/
theorem Registered.addHandler (h : s.Registered e i) (field : List Char) (handler : Handler) :
    (s.addHandler J field handler).Registered e i :=
  have hInit := h.tryInitField (J := J) field
  ⟨hInit.name, mem_update_append.mpr (.inl hInit.handler), hInit.text⟩

-- ---------------------------------------------------------------------------
-- What the page shows
-- ---------------------------------------------------------------------------

/-- The value that a member of a reply gives a field. -/
def valueOf (f : List Char) (m : List Char × V) : Option V := if m.1 = f then some m.2 else none

/-- The page has got these members, and every element shows the last one of its field. -/
def Shows (J : Script V) (msgs : List (List Char × V)) (s : DataPage V) : Prop :=
  ∀ i e, s.elements[i]? = some e →
    s.innerHTML i = latest (fun m => (valueOf e.field m).map (e.show J)) e.html msgs

/-- A page with these elements, all of which are updated. -/
structure Live (J : Script V) (elements : List TextField) (msgs : List (List Char × V))
    (s : DataPage V) : Prop extends s.Wired elements where
  ordered    : s.Ordered
  registered : ∀ i e, elements[i]? = some e → s.Registered e i
  shows      : s.Shows J msgs

variable {msgs : List (List Char × V)} {m : List Char × V}

/-- A new field is not shown anywhere. -/
theorem Shows.tryInitField (h : s.Shows J msgs) (field : List Char) :
    (s.tryInitField J field).Shows J msgs := by
  unfold DataPage.tryInitField
  split
  · exact h
  · exact h

/-- A new field leaves the page as it is. -/
theorem Live.tryInitField (h : s.Live J elements msgs) (field : List Char) :
    (s.tryInitField J field).Live J elements msgs where
  toWired := h.toWired.tryInitField field
  ordered := h.ordered.tryInitField field
  registered i e hAt := (h.registered i e hAt).tryInitField field
  shows := h.shows.tryInitField field

/-- The handlers of other scripts leave the page as it is. -/
theorem Live.addHandler (h : s.Live J elements msgs) (field : List Char) (i : Nat) :
    (s.addHandler J field (.other i)).Live J elements msgs :=
  have hInit := h.tryInitField field
  ⟨⟨hInit.same, hInit.nodup, hInit.texts⟩, h.ordered.addHandler field i,
    fun i e hAt => (h.registered i e hAt).addHandler field _, hInit.shows⟩

/-- And so do all of them. -/
theorem Live.foldl_addHandler (h : s.Live J elements msgs) (others : List (List Char × Nat)) :
    (others.foldl (fun s o => s.addHandler J o.1 (.other o.2)) s).Live J elements msgs := by
  induction others generalizing s with
  | nil => exact h
  | cons o others ih => exact ih (h.addHandler o.1 o.2)

/-- By induction over the elements that are registered. -/
theorem registerFieldHandlers_wired {l : List (TextField × Nat)}
    (hl : ∀ p ∈ l, elements[p.2]? = some p.1) (hWired : s.Wired elements) (hUpdates : s.Updates)
    (hShows : s.Shows J msgs) :
    let t := l.foldl (fun s e => s.registerFieldHandler J e.1 e.2) s
    t.Wired elements ∧ t.Updates ∧ t.Shows J msgs ∧
      ∀ e i, (s.Registered e i ∨ (e, i) ∈ l) → t.Registered e i := by
  induction l generalizing s with
  | nil => exact ⟨hWired, hUpdates, hShows, fun e i h => h.resolve_right List.not_mem_nil⟩
  | cons p l ih =>
    obtain ⟨hAt, hl⟩ := List.forall_mem_cons.mp hl
    have hFirst : (s.registerFieldHandler J p.1 p.2).Shows J msgs := by
      rw [registerFieldHandler_eq]
      exact hShows.tryInitField p.1.field
    obtain ⟨hWired', hUpdates', hShows', hRegistered⟩ :=
      ih hl (hWired.registerFieldHandler hAt) (hUpdates.registerFieldHandler p.1 p.2) hFirst
    refine ⟨hWired', hUpdates', hShows', fun e i h => hRegistered e i ?_⟩
    rcases h with h | h
    · exact .inl (h.registerFieldHandler p.1 p.2)
    · rcases List.mem_cons.mp h with rfl | h
      · exact .inl (registerFieldHandler_registered s e i)
      · exact .inr h

/-- A page that was loaded shows what its elements have. -/
theorem load_live (elements : List TextField) (others : List (List Char × Nat)) :
    (load J elements others).Live J elements [] := by
  have hWired : (blank J elements).Wired elements :=
    ⟨rfl, List.Pairwise.nil, fun _ _ h => absurd h List.not_mem_nil⟩
  have hUpdates : (blank J elements).Updates := fun _ _ h => absurd h List.not_mem_nil
  have hShows : (blank J elements).Shows J [] := by
    intro i e hAt
    show (elements[i]?).elim [] TextField.html = e.html
    have hAt : elements[i]? = some e := hAt
    rw [hAt]
    rfl
  obtain ⟨hWired, hUpdates, hShows, hRegistered⟩ := registerFieldHandlers_wired
    (l := elements.zipIdx) (fun p hp => List.mem_zipIdx_iff_getElem?.mp hp) hWired hUpdates hShows
  have hLive : (elements.zipIdx.foldl (fun s e => s.registerFieldHandler J e.1 e.2)
      (blank J elements)).Live J elements [] := by
    refine ⟨hWired, hUpdates.ordered, fun i e hAt => hRegistered e i (.inr ?_), hShows⟩
    exact List.mem_zipIdx_iff_getElem?.mpr hAt
  exact hLive.foldl_addHandler others

-- ---------------------------------------------------------------------------
-- A reply
-- ---------------------------------------------------------------------------

/-- What changes when elements are written: what some of them show. -/
structure Writes (s t : DataPage V) (P : Nat → TextField → Option (List Char)) : Prop
    extends SameWires s t where
  value : t.value = s.value
  text  : ∀ j e, s.elements[j]? = some e → t.innerHTML j = (P j e).getD (s.innerHTML j)

/-- One element is written, the others stay. -/
theorem write_writes (s : DataPage V) (v : V) (i : Nat) :
    Writes s (s.write J v i) fun j e => if j = i then some (e.show J v) else none := by
  refine ⟨⟨rfl, rfl, rfl, rfl⟩, rfl, fun j e hAt => ?_⟩
  unfold write
  dsimp only
  by_cases hSame : j = i
  · subst hSame
    rw [hAt, if_pos rfl]
    exact Function.update_self ..
  · rw [if_neg hSame]
    cases s.elements[i]? with
    | none => rfl
    | some e' => exact Function.update_of_ne hSame ..

/-- By induction over the elements of the field. -/
theorem foldl_write (s : DataPage V) (v : V) (is : List Nat) :
    Writes s (is.foldl (fun t i => t.write J v i) s) fun j e =>
      if j ∈ is then some (e.show J v) else none := by
  induction is generalizing s with
  | nil => exact ⟨sameWires_refl s, rfl, fun j e _ => rfl⟩
  | cons i is ih =>
    have hFirst := write_writes (J := J) s v i
    have hRest := ih (s.write J v i)
    refine ⟨hFirst.toSameWires.trans hRest.toSameWires, hRest.value.trans hFirst.value, ?_⟩
    intro j e hAt
    rw [List.foldl_cons, hRest.text j e (hFirst.elements ▸ hAt), hFirst.text j e hAt]
    by_cases hi : j ∈ is
    · rw [if_pos hi, if_pos (List.mem_cons_of_mem _ hi)]
      rfl
    · rw [if_neg hi]
      simp [hi]

/-- The elements of the field are written, the others stay. -/
theorem updateFieldHandler_writes (h : field ∈ s.names) :
    Writes s (s.updateFieldHandler J field) fun j e =>
      if j ∈ s.textFields field then some (e.show J (s.value field)) else none := by
  unfold updateFieldHandler
  rw [tryInitField_of_mem h]
  exact foldl_write s (s.value field) (s.textFields field)

/-- The handlers that update a field write the same: it does not matter how many there are. -/
theorem foldl_updateFieldHandler (h : field ∈ s.names) (us : List Handler) :
    Writes s (us.foldl (fun t _ => t.updateFieldHandler J field) s) fun j e =>
      if j ∈ s.textFields field ∧ us ≠ [] then some (e.show J (s.value field)) else none := by
  induction us generalizing s with
  | nil => exact ⟨sameWires_refl s, rfl, fun j e _ => by rw [if_neg (fun h => h.2 rfl)]; rfl⟩
  | cons u us ih =>
    have hFirst := updateFieldHandler_writes (J := J) h
    have hRest := ih (hFirst.names ▸ h)
    refine ⟨hFirst.toSameWires.trans hRest.toSameWires, hRest.value.trans hFirst.value, ?_⟩
    intro j e hAt
    rw [List.foldl_cons, hRest.text j e (hFirst.elements ▸ hAt), hFirst.text j e hAt,
      hFirst.textFields, hFirst.value]
    by_cases hText : j ∈ s.textFields field <;> by_cases hNil : us = [] <;> simp [hText, hNil]

/-- A loop whose body does not throw goes over the whole list. -/
theorem untilThrown_eq_foldl {α : Type} {body : DataPage V → α → DataPage V × Bool} {as : List α}
    (h : (untilThrown body s as).2 = true) :
    (untilThrown body s as).1 = as.foldl (fun s a => (body s a).1) s := by
  induction as generalizing s with
  | nil => rfl
  | cons a as ih =>
    rw [untilThrown] at h ⊢
    split at h
    case isTrue hReturns =>
      rw [if_pos hReturns]
      exact ih h
    case isFalse => cases h

/-- The handlers that update a field do not throw, and come first. -/
theorem untilThrown_update {us os : List Handler} (hUs : ∀ h ∈ us, h = .update field) :
    untilThrown (call J) s (us ++ os) =
      untilThrown (call J) (us.foldl (fun t _ => t.updateFieldHandler J field) s) os := by
  induction us generalizing s with
  | nil => rfl
  | cons u us ih =>
    obtain ⟨hFirst, hRest⟩ := List.forall_mem_cons.mp hUs
    rw [hFirst]
    exact (if_pos rfl).trans (ih hRest)

/-- The handlers of other scripts leave the elements alone, whether they throw or not. -/
theorem untilThrown_other {os : List Handler} (hOs : ∀ h ∈ os, ∃ i, h = Handler.other i) :
    SameWires s (untilThrown (call J) s os).1 ∧
      (untilThrown (call J) s os).1.innerHTML = s.innerHTML := by
  induction os generalizing s with
  | nil => exact ⟨sameWires_refl s, rfl⟩
  | cons o os ih =>
    obtain ⟨⟨i, hOther⟩, hRest⟩ := List.forall_mem_cons.mp hOs
    rw [hOther, untilThrown]
    have hFirst : SameWires s (s.call J (.other i)).1 := ⟨rfl, rfl, rfl, rfl⟩
    split
    case isTrue => exact ⟨hFirst.trans (ih hRest).1, (ih hRest).2⟩
    case isFalse => exact ⟨hFirst, rfl⟩

/-- One field of a reply is shown, also where a handler throws: the elements are written first. -/
theorem receiveField_live (h : s.Live J elements msgs) (m : List Char × V) :
    (s.receiveField J m).1.Live J elements (msgs ++ [m]) ∧
      (s.receiveField J m).1.names = (s.tryInitField J m.1).names := by
  have hInit := h.tryInitField m.1
  have hName := mem_tryInitField (J := J) s m.1
  set u := s.tryInitField J m.1 with hu
  set v : DataPage V := { u with value := Function.update u.value m.1 m.2 } with hv
  obtain ⟨us, os, hHandlers, hUs, hOs⟩ := hInit.ordered m.1
  have hReceive : s.receiveField J m =
      untilThrown (call J) (us.foldl (fun t _ => t.updateFieldHandler J m.1) v) os := by
    rw [← untilThrown_update hUs, ← hHandlers]
    rfl
  have hWrites := foldl_updateFieldHandler (J := J) (s := v) hName us
  obtain ⟨hSame, hHtml⟩ := untilThrown_other (J := J)
    (s := us.foldl (fun t _ => t.updateFieldHandler J m.1) v) hOs
  rw [← hReceive] at hSame hHtml
  have hFirst : SameWires u (us.foldl (fun t _ => t.updateFieldHandler J m.1) v) :=
    ⟨hWrites.elements, hWrites.names, hWrites.handlers, hWrites.textFields⟩
  have hWires : SameWires u (s.receiveField J m).1 := hFirst.trans hSame
  refine ⟨⟨hWires.wired hInit.toWired, hWires.ordered hInit.ordered, fun i e hAt =>
    hWires.registered (hInit.registered i e hAt), ?_⟩, hWires.names⟩
  intro i e hAt
  rw [hWires.elements] at hAt
  have hText : (s.receiveField J m).1.innerHTML i = _ :=
    (congrFun hHtml i).trans (hWrites.text i e hAt)
  have hElement : elements[i]? = some e := hInit.same ▸ hAt
  rw [hText, latest_concat, valueOf, ← hInit.shows i e hAt]
  have hValue : v.value m.1 = m.2 := Function.update_self ..
  by_cases hField : e.field = m.1
  · -- the element has put its own handler in front of those of other scripts
    have hRegistered := hInit.registered i e hElement
    have hIn : i ∈ u.textFields m.1 := hField ▸ hRegistered.text
    have hSome : us ≠ [] := by
      rintro rfl
      have hMem := hRegistered.handler
      rw [hField, hHandlers, List.nil_append] at hMem
      obtain ⟨j, hOther⟩ := hOs _ hMem
      cases hOther
    rw [if_pos ⟨hIn, hSome⟩, if_pos hField.symm, hValue]
    rfl
  · have hOut : i ∉ u.textFields m.1 := by
      intro hIn
      obtain ⟨e', hAt', hName'⟩ := hInit.texts m.1 i hIn
      obtain rfl := Option.some.inj (hElement.symm.trans hAt')
      exact hField hName'
    rw [if_neg fun hBoth => hOut hBoth.1, if_neg (Ne.symm hField)]
    rfl

/-- A whole reply, field by field. -/
theorem foldl_receiveField_live (h : s.Live J elements msgs) (msg : List (List Char × V)) :
    (msg.foldl (fun s m => (s.receiveField J m).1) s).Live J elements (msgs ++ msg) := by
  induction msg generalizing s msgs with
  | nil => rwa [List.append_nil]
  | cons m msg ih =>
    rw [List.foldl_cons, List.append_cons]
    exact ih (receiveField_live h m).1

/-- A reply to what was asked brings no field that is not asked for, but the time. -/
theorem foldl_receiveField_asked (h : s.Live J elements msgs) {msg : List (List Char × V)}
    (hKnown : ∀ m ∈ msg, m.1 = "time".toList ∨ m.1 ∈ s.asked) :
    (msg.foldl (fun s m => (s.receiveField J m).1) s).asked = s.asked := by
  induction msg generalizing s msgs with
  | nil => rfl
  | cons m msg ih =>
    obtain ⟨hFirst, hKnown⟩ := List.forall_mem_cons.mp hKnown
    obtain ⟨hLive, hNames⟩ := receiveField_live h m
    have hAsked : (s.receiveField J m).1.asked = s.asked := by
      rw [asked, hNames, asked, tryInitField]
      rcases hFirst with hTime | hIn
      · split
        · rfl
        · simp [hTime]
      · rw [if_pos (List.contains_iff_mem.mpr (List.mem_filter.mp hIn).1)]
    rw [List.foldl_cons, ih hLive (fun m' hm' => hAsked ▸ hKnown m' hm'), hAsked]

/-- The text of a page that asks for something has a comma behind the last member. -/
theorem sendRequests_eq (s : DataPage V) :
    ∃ trailing, s.sendRequests = pageText (s.asked.map (·, "null".toList)) trailing := by
  cases hFields : s.asked with
  | nil => exact ⟨false, by simp [sendRequests, hFields, pageText, pageMembers]⟩
  | cons f fs =>
    have hFlat := flatMap_members (f, "null".toList) (fs.map (·, "null".toList))
    refine ⟨true, ?_⟩
    rw [sendRequests, hFields, pageText, List.map_cons, pageMembers]
    rw [pageMembers, List.flatMap_cons, List.flatMap_map] at hFlat
    rw [List.flatMap_cons, hFlat]
    simp

/-- The text of a message has one member. -/
theorem sendMessage_eq (queue content : List Char) :
    sendMessage queue content = pageText [(queue, content)] false := by
  simp [sendMessage, pageText, pageMembers]

end DataPage

end Sailbot.Ui
