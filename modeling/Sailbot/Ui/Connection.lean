import Sailbot.Lib.Channel
import Sailbot.Management.Monitor

/-!
# Whether the page is connected

`WebSocketServer` (`ui/server.cc`) notes when the page last sent something, and `Iterate` tells on
`connection_status` whether that was in the last five seconds; the monitor hears it and tells it on
the CAN bus. The queue is a channel: the monitor may be late, and may miss messages. A page can
put a status of its own on it: a set request for `connection_status` is sent like any other.

The beginning of `ProcessSocket` is one step, and so are a set request, `Iterate` with its `send`,
and every handler of the monitor.

* `ConnectionServer`    — the part of the server that this is about.
* `Link.step`           — the server, the queue and the monitor, in any order.
* `Link.page_connected` — what the monitor tells of the page.
-/

namespace Sailbot.Ui

open Lib

/-- `conn_status_` and `last_conn_`. -/
structure ConnectionServer where
  connected : Bool := false
  lastConn  : Int := 0

namespace ConnectionServer

/-- Five seconds. -/
def kTimeout : Int := 5 * 10 ^ 9

/-- The beginning of `ProcessSocket`. -/
def processSocket (_ : ConnectionServer) (now : Int) : ConnectionServer :=
  { connected := true, lastConn := now }

/-- `Iterate`, before the status is sent. -/
def iterate (s : ConnectionServer) (now : Int) : ConnectionServer :=
  { s with connected := if now > s.lastConn + kTimeout then false else s.connected }

def watchdog (s : ConnectionServer) : Watchdog := ⟨s.connected, s.lastConn⟩

/-- An `Iterate` is a check of the watchdog. -/
theorem iterate_watchdog (s : ConnectionServer) (now : Int) :
    (s.iterate now).watchdog = s.watchdog.step kTimeout (.check now) := by
  rw [Watchdog.step]
  split
  · next hLate => exact congrArg₂ Watchdog.mk (if_pos hLate) rfl
  · next hSoon => exact congrArg₂ Watchdog.mk (if_neg hSoon) rfl

end ConnectionServer

structure Link where
  server  : ConnectionServer
  /-- `connection_status`; the monitor is the reader. -/
  status  : Channel Bool Unit
  monitor : Monitor

inductive LinkAction
  /-- The page sends something. -/
  | socket (now : Int)
  | iterate (now : Int)
  /-- A set request for `connection_status`, in a text that a page has sent. -/
  | set (connected : Bool)
  /-- The monitor is given an entry of the queue. -/
  | give (i : Nat)
  | monitor (a : MonitorMsg)

namespace Link

def init : Link where
  server := {}
  status := .empty
  monitor := {}

/-- The monitor gets connection statuses from the queue only. -/
def step (s : Link) : LinkAction → Option Link
  | .socket now => some { s with server := s.server.processSocket now }
  | .iterate now =>
    let server := s.server.iterate now
    some { s with server := server, status := s.status.send [server.connected] }
  | .set connected => some { s with status := s.status.send [connected] }
  | .give i =>
    if s.status.Ready () i then s.status.sent[i]?.map fun connected =>
      { s with
        status := s.status.give () i
        monitor := s.monitor.step (.connectionStatus connected) }
    else none
  | .monitor a =>
    if (Monitor.connected? a).isSome then none else some { s with monitor := s.monitor.step a }

/-- What is told or asked of the page. -/
def page? : LinkAction → Option WatchdogMsg
  | .socket now => some (.heard now)
  | .iterate now => some (.check now)
  | _ => none

/-- The action puts a status on the queue. -/
def Sends : LinkAction → Prop
  | .iterate _ | .set _ => True
  | _ => False

/-- What the actions `as` lead to. -/
structure Reached (as : List LinkAction) (s : Link) : Prop where
  ordered  : s.status.Ordered
  watchdog : s.server.watchdog = Watchdog.after ConnectionServer.kTimeout (as.filterMap page?)
  monitor  : s.monitor.uiConnection = latest some false (s.status.received ())

/-- Every step leaves the state that the actions so far have reached. -/
theorem step_reached {as : List LinkAction} {s t : Link} {a : LinkAction} (h : Reached as s)
    (hstep : step s a = some t) : Reached (as ++ [a]) t := by
  have hSame : page? a = none → as.filterMap page? = (as ++ [a]).filterMap page? := by
    intro hNone
    rw [List.filterMap_append, List.filterMap_cons_none hNone]
    exact (List.append_nil _).symm
  cases a with
  | socket now =>
    obtain rfl := Option.some.inj hstep
    refine ⟨h.ordered, ?_, h.monitor⟩
    rw [List.filterMap_append]
    exact (Watchdog.after_concat _ _ (.heard now)).symm
  | iterate now =>
    obtain rfl := Option.some.inj hstep
    refine ⟨h.ordered.send _, ?_, h.monitor.trans (by rw [h.ordered.received_send])⟩
    rw [List.filterMap_append]
    refine (ConnectionServer.iterate_watchdog _ now).trans ?_
    rw [h.watchdog]
    exact (Watchdog.after_concat _ _ (.check now)).symm
  | set connected =>
    obtain rfl := Option.some.inj hstep
    exact ⟨h.ordered.send _, h.watchdog.trans (by rw [hSame rfl]),
      h.monitor.trans (by rw [h.ordered.received_send])⟩
  | give i =>
    obtain ⟨hReady, hstep⟩ := Option.ite_none_right_eq_some.mp hstep
    obtain ⟨connected, hSent, rfl⟩ := Option.map_eq_some_iff.mp hstep
    refine ⟨h.ordered.give hReady, h.watchdog.trans (by rw [hSame rfl]), ?_⟩
    rw [Channel.received_give_self hSent, latest_concat]
    rfl
  | monitor b =>
    obtain ⟨hNone, hstep⟩ := Option.ite_none_left_eq_some.mp hstep
    obtain rfl := Option.some.inj hstep
    refine ⟨h.ordered, h.watchdog.trans (by rw [hSame rfl]), Eq.trans ?_ h.monitor⟩
    cases b with
    | connectionStatus _ => exact absurd rfl hNone
    | controlMode _ | rigidWingFeedback _ | iterate _ => rfl

/-- So does every run. -/
theorem run_reached {as : List LinkAction} {s : Link} (hrun : run step init as = some s) :
    Reached as s := by
  induction as using List.reverseRecOn generalizing s with
  | nil =>
    obtain rfl := Option.some.inj hrun
    exact ⟨Channel.ordered_empty, rfl, rfl⟩
  | append_singleton as a ih =>
    obtain ⟨t, ht, hstep⟩ := run_concat_eq_some.mp hrun
    exact step_reached (ih ht) hstep

/-- While nobody sends, the queue stays as it is. -/
theorem run_sent {as : List LinkAction} {s t : Link} (hNone : ∀ a ∈ as, ¬ Sends a)
    (hrun : run step s as = some t) : t.status.sent = s.status.sent := by
  have hStep : ∀ (s : Link) a t, a ∈ as → step s a = some t → t.status.sent = s.status.sent := by
    intro s a t ha hstep
    cases a with
    | socket now =>
      obtain rfl := Option.some.inj hstep
      rfl
    | iterate _ | set _ => exact absurd trivial (hNone _ ha)
    | give i =>
      obtain ⟨-, hstep⟩ := Option.ite_none_right_eq_some.mp hstep
      obtain ⟨connected, -, rfl⟩ := Option.map_eq_some_iff.mp hstep
      rfl
    | monitor b =>
      obtain ⟨-, hstep⟩ := Option.ite_none_left_eq_some.mp hstep
      obtain rfl := Option.some.inj hstep
      rfl
  clear hNone
  induction as generalizing s with
  | nil =>
    obtain rfl := Option.some.inj hrun
    rfl
  | cons a as ih =>
    obtain ⟨u, hu, hrun⟩ := run_cons_eq_some.mp hrun
    rw [ih hrun fun s b t hb => hStep s b t (List.mem_cons_of_mem _ hb)]
    exact hStep s a u List.mem_cons_self hu

/-- **The page.** In every run, once the monitor was given the last status on the queue, and this is
the one that the server's `Iterate` sent at the time `p`, its own `Iterate` tells that the page is
connected, if and only if the page had sent something in the five seconds before `p`; whatever other
statuses, of the server or of pages, the monitor was given or missed. -/
theorem page_connected (pre post : List LinkAction) (p now : Int) {s : Link}
    (hrun : run step init (pre ++ .iterate p :: post) = some s)
    (hLast : ∀ a ∈ post, ¬ Sends a) (hGiven : s.status.Informed some ())
    (hClock : Watchdog.ClockForward ((pre ++ [LinkAction.iterate p]).filterMap page?)) :
    ∃ conn : SailbotConn,
      (s.monitor.iterate now).connectionQueue = s.monitor.connectionQueue ++ [conn] ∧
      (conn.uiConn = .good ↔
        ∃ t, .socket t ∈ pre ∧ p ≤ t + ConnectionServer.kTimeout) := by
  refine ⟨_, rfl, (Monitor.connection_eq_good_iff _).trans ?_⟩
  have hReached := run_reached hrun
  rw [List.append_cons] at hrun
  obtain ⟨t, ht, hPost⟩ := run_append_eq_some.mp hrun
  have hSent := run_sent hLast hPost
  -- the status that was sent at `p` is the last one in the queue
  have hStatus : ∃ l, t.status.sent = l ++ [t.server.connected] := by
    obtain ⟨u, -, hstep⟩ := run_concat_eq_some.mp ht
    obtain rfl := Option.some.inj hstep
    exact ⟨_, rfl⟩
  obtain ⟨l, hl⟩ := hStatus
  rw [hReached.monitor, hReached.ordered.latest_received_eq hGiven, hSent, hl, latest_concat]
  rw [List.filterMap_append] at hClock
  have hAlive := @Watchdog.alive_iff ConnectionServer.kTimeout _ _ hClock
  have hAfter := (run_reached ht).watchdog
  rw [List.filterMap_append] at hAfter
  rw [show ([LinkAction.iterate p].filterMap page?) = [.check p] from rfl] at hAfter
  rw [← hAfter] at hAlive
  refine hAlive.trans (exists_congr fun t => and_congr_left fun _ => ?_)
  rw [List.mem_filterMap]
  constructor
  · rintro ⟨a, ha, hPage⟩
    cases a with
    | socket now =>
      cases hPage
      exact ha
    | iterate _ | set _ | give _ | monitor _ => cases hPage
  · exact fun ha => ⟨_, ha, rfl⟩

/-- The page says that it is not connected; three seconds later the server tells that it is. -/
theorem page_connected_soon :
    ∃ s, run step init [.iterate 0, .socket 10, .set false, .give 1, .iterate (3 * 10 ^ 9),
        .give 2] = some s ∧
      ∃ conn : SailbotConn,
        (s.monitor.iterate (4 * 10 ^ 9)).connectionQueue = s.monitor.connectionQueue ++ [conn] ∧
        conn.uiConn = .good := by
  refine ⟨_, rfl, ?_⟩
  obtain ⟨conn, hConn, hUi⟩ := page_connected
    [.iterate 0, .socket 10, .set false, .give 1] [.give 2] (3 * 10 ^ 9) (4 * 10 ^ 9) rfl
    (by simp [Sends]) (by
      rintro k v ⟨⟨m, hSent, -⟩, hAfter⟩
      rcases k with _ | _ | _ | k
      · cases hAfter 2 true (by decide) rfl
      · cases hAfter 2 true (by decide) rfl
      · exact List.mem_concat_self
      · cases hSent) (by unfold Watchdog.ClockForward; decide)
  exact ⟨conn, hConn, hUi.mpr ⟨10, by simp, by decide⟩⟩

end Link

end Sailbot.Ui
