import MidiGw.Handlers

/-!
# Requests one after another

The handlers take many steps where `Gateway.handle` takes one. When no request
arrives before the last one was answered, their runs come to the same: a start
takes effect with its Popen, a stop with its SIGTERM, and tappers may end in
between.
-/

namespace MidiGw.Gateway

open C (CStr)
open Runs (Along run run_append run_cons run_single)

namespace Handlers

/-! ## At most one handler under way -/

def Pc.done : Pc → Bool
  | .finished _ => true
  | _ => false

/-- No handler is under way. -/
def Idle (s : State) : Prop := ∀ g pc, s.pcs g = some pc → pc.done = true

/-- This handler is under way, and no other. -/
structure Alone (s : State) (h : Nat) (pc : Pc) : Prop where
  standing : s.pcs h = some pc
  others : ∀ g pc', g ≠ h → s.pcs g = some pc' → pc'.done = true

theorem Alone.moved {s : State} {h : Nat} {pc : Pc} (alone : Alone s h pc) (w : World) (pc' : Pc) :
    Alone (s.set w h pc') h pc' :=
  ⟨set_same s w h pc', fun g other ne there => alone.others g other ne
    ((set_other s w pc' ne).symm.trans there)⟩

theorem Alone.finished {s : State} {h : Nat} {pc : Pc} (alone : Alone s h pc) (w : World)
    (reply : Reply) : Idle (s.set w h (.finished reply)) := by
  intro g pc' there
  obtain ⟨-, rfl⟩ | ⟨ne, was⟩ := set_pcs there
  · rfl
  · exact alone.others g pc' ne was

theorem Idle.entered {s : State} (idle : Idle s) (h : Nat) (pc : Pc) :
    Alone (s.set s.world h pc) h pc :=
  ⟨set_same s s.world h pc, fun g other ne there => idle g other
    ((set_other s s.world pc ne).symm.trans there)⟩

/-! ## The one step that a request comes to -/

/-- The handler under way, its request if that has not taken effect yet, and
its reply if it has. -/
structure Ledger where
  active : List Nat
  unserved : List Request
  answered : List Reply

/-- Where the gateway of single steps stands. -/
inductive Serves (s : State) : World → Ledger → Prop
  | idle (all : Idle s) : Serves s s.world ⟨[], [], []⟩
  | starting (h : Nat) (channel message value bpm : CStr)
      (alone : Alone s h (.popen channel message value bpm)) :
      Serves s s.world ⟨[h], [.start channel message value bpm], []⟩
  | assigning (h p : Nat) (alone : Alone s h (.assign p)) :
      Serves s { s.world with tapProc := some p } ⟨[h], [], [.ok]⟩
  | checking (h : Nat) (alone : Alone s h .check) : Serves s s.world ⟨[h], [.stop], []⟩
  | stopping (h q : Nat) (pc : Pc) (alone : Alone s h pc) (tap : s.world.tapProc = some q)
      (between : pc = .readInt ∨ pc = .sendInt (some q) ∨ pc = .readTerm ∨
        pc = .sendTerm (some q)) :
      Serves s s.world ⟨[h], [.stop], []⟩
  | resetting (h : Nat) (alone : Alone s h .reset) :
      Serves s { s.world with tapProc := none } ⟨[h], [], [.ok]⟩

theorem Serves.ledger_idle {s : State} {w : World} {l : Ledger} (h : Serves s w l)
    (idle : Idle s) : w = s.world ∧ l = ⟨[], [], []⟩ := by
  cases h with
  | idle all => exact ⟨rfl, rfl⟩
  | starting g c m v t alone => cases idle g _ alone.standing
  | assigning g p alone => cases idle g _ alone.standing
  | checking g alone => cases idle g _ alone.standing
  | stopping g q pc alone tap between =>
    have done := idle g _ alone.standing
    rcases between with rfl | rfl | rfl | rfl <;> cases done
  | resetting g alone => cases idle g _ alone.standing

/-- The end of a tapper is one step in both. -/
theorem Serves.exit {s : State} {w : World} {l : Ledger} (h : Serves s w l) {p : Nat}
    (live : p ∈ s.world.live) :
    handle w (.exit p) = some (w.ended p, []) ∧
      Serves { s with world := s.world.ended p } (w.ended p) l := by
  have alone {g : Nat} {pc : Pc} (alone : Alone s g pc) :
      Alone { s with world := s.world.ended p } g pc := ⟨alone.standing, alone.others⟩
  cases h with
  | idle all => exact ⟨by simp [handle, live], .idle all⟩
  | starting g c m v t here => exact ⟨by simp [handle, live], .starting g c m v t (alone here)⟩
  | assigning g q here => exact ⟨by simp [handle, live], .assigning g q (alone here)⟩
  | checking g here => exact ⟨by simp [handle, live], .checking g (alone here)⟩
  | stopping g q pc here tap between =>
    exact ⟨by simp [handle, live], .stopping g q pc (alone here) tap between⟩
  | resetting g here => exact ⟨by simp [handle, live], .resetting g (alone here)⟩

/-! ## What a run owes and settles -/

def Act.requests : Act → List Request
  | .arrive _ r => [r]
  | .run _ _ | .exit _ => []

def Act.arrivals : Act → List Nat
  | .arrive h _ => [h]
  | .run _ _ | .exit _ => []

def requestOf : Event → Option Request
  | .start channel message value bpm _ => some (.start channel message value bpm)
  | .stop => some .stop
  | .exit _ => none

/-- From one ledger to another: the requests that have arrived are served in
order or still open, and the handlers that have finished hold their replies. -/
structure Settled (t : State) (requests : List Request) (arrivals : List Nat)
    (events : List Event) (replies : List Reply) (l l' : Ledger) : Prop where
  served : l.unserved ++ requests = events.filterMap requestOf ++ l'.unserved
  done : ∃ done : List (Nat × Reply),
    l.active ++ arrivals = done.map Prod.fst ++ l'.active ∧
    l.answered ++ replies = done.map Prod.snd ++ l'.answered ∧
    ∀ d ∈ done, t.pcs d.1 = some (.finished d.2)

/-- The step leaves the handler under way. -/
theorem Settled.goes {t : State} {events : List Event} {replies : List Reply} {l l' : Ledger}
    (served : l.unserved = events.filterMap requestOf ++ l'.unserved)
    (active : l.active = l'.active) (answered : l.answered ++ replies = l'.answered) :
    Settled t [] [] events replies l l' :=
  ⟨by simpa using served, [], by simpa using active, by simpa using answered, by simp⟩

/-- The step finishes the handler. -/
theorem Settled.ends {t : State} {h : Nat} {reply : Reply} {events : List Event}
    {replies : List Reply} {l : Ledger} (served : l.unserved = events.filterMap requestOf)
    (active : l.active = [h]) (answered : l.answered ++ replies = [reply])
    (finished : t.pcs h = some (.finished reply)) :
    Settled t [] [] events replies l ⟨[], [], []⟩ :=
  ⟨by simpa using served, [(h, reply)], by simpa using active, by simpa using answered,
    by simpa using finished⟩

/-- One step of the only handler under way. -/
theorem serves_run {s : State} {w w' : World} {l : Ledger} {g : Nat} {forks : Bool}
    {pc pc' : Pc} {out : List Shown} (h : Serves s w l) (standing : s.pcs g = some pc)
    (taken : handlerStep s.world g forks pc = some (w', pc', out)) :
    ∃ events v replies l', run handle w events = some (v, replies) ∧
      Serves (s.set w' g pc') v l' ∧ Settled (s.set w' g pc') [] [] events replies l l' := by
  -- only the handler under way can take a step
  have self {k : Nat} {pc'' : Pc} (alone : Alone s k pc'') : g = k ∧ pc = pc'' := by
    by_cases same : g = k
    · subst same
      exact ⟨rfl, Option.some.inj (standing.symm.trans alone.standing)⟩
    · have done := alone.others g pc same standing
      cases pc with
      | finished => cases taken
      | _ => cases done
  cases h with
  | idle all =>
    have done := all g pc standing
    cases pc with
    | finished => cases taken
    | _ => cases done
  | starting k channel message value bpm alone =>
    obtain ⟨rfl, rfl⟩ := self alone
    simp only [handlerStep] at taken
    split at taken
    · rename_i refused
      cases taken
      refine ⟨[.start channel message value bpm forks], s.world, [.raised], _, ?_,
        .idle (alone.finished _ _), .ends rfl rfl rfl (set_same _ _ _ _)⟩
      simp [handle, run_single, midiTapStart, startTapProc, refused]
    · rename_i p forked accepted
      cases taken
      refine ⟨[.start channel message value bpm forks], { w' with tapProc := some p }, [.ok], _, ?_,
        .assigning g p (alone.moved _ _), .goes rfl rfl rfl⟩
      simp [handle, run_single, midiTapStart, startTapProc, accepted]
  | assigning k p alone =>
    obtain ⟨rfl, rfl⟩ := self alone
    cases taken
    exact ⟨[], _, [], _, rfl, .idle (alone.finished _ _), .ends rfl rfl rfl (set_same _ _ _ _)⟩
  | checking k alone =>
    obtain ⟨rfl, rfl⟩ := self alone
    simp only [handlerStep] at taken
    split at taken
    · rename_i idle
      cases taken
      refine ⟨[.stop], s.world, [.notRunning], _, ?_, .idle (alone.finished _ _),
        .ends rfl rfl rfl (set_same _ _ _ _)⟩
      simp [handle, run_single, midiTapStop_none idle]
    · rename_i running
      cases taken
      obtain ⟨q, tap⟩ := Option.ne_none_iff_exists'.mp running
      exact ⟨[], _, [], _, rfl, .stopping g q .readInt (alone.moved _ _) tap (.inl rfl),
        .goes rfl rfl rfl⟩
  | stopping k q pc'' alone tap between =>
    obtain ⟨rfl, rfl⟩ := self alone
    rcases between with rfl | rfl | rfl | rfl
    · cases taken
      exact ⟨[], _, [], _, rfl, .stopping g q (.sendInt s.world.tapProc) (alone.moved _ _) tap
        (.inr (.inl (by rw [tap]))), .goes rfl rfl rfl⟩
    · cases taken
      exact ⟨[], _, [], _, rfl, .stopping g q .readTerm (alone.moved _ _) tap
        (.inr (.inr (.inl rfl))), .goes rfl rfl rfl⟩
    · cases taken
      exact ⟨[], _, [], _, rfl, .stopping g q (.sendTerm s.world.tapProc) (alone.moved _ _) tap
        (.inr (.inr (.inr (by rw [tap])))), .goes rfl rfl rfl⟩
    · cases taken
      refine ⟨[.stop], { s.world.ended q with tapProc := none }, [.ok], _, ?_,
        .resetting g (alone.moved _ _), .goes rfl rfl rfl⟩
      simp [handle, run_single, midiTapStop_some tap]
  | resetting k alone =>
    obtain ⟨rfl, rfl⟩ := self alone
    cases taken
    exact ⟨[], _, [], _, rfl, .idle (alone.finished _ _), .ends rfl rfl rfl (set_same _ _ _ _)⟩

/-- A request arrives only when no handler is under way. -/
def InTurn (s : State) (_ : List Shown) (a : Act) : Prop := ∀ g r, a = .arrive g r → Idle s

theorem serves_step {s t : State} {tr out : List Shown} {w : World} {l : Ledger} {a : Act}
    (h : Serves s w l) (inTurn : InTurn s tr a) (hs : step s a = some (t, out)) :
    ∃ events v replies l', run handle w events = some (v, replies) ∧ Serves t v l' ∧
      Settled t a.requests a.arrivals events replies l l' := by
  rcases step_cases hs with ⟨g, r, rfl, fresh, rfl, rfl⟩ |
    ⟨g, forks, pc, w', pc', rfl, standing, taken, rfl⟩ | ⟨p, rfl, rfl, rfl⟩
  · have idle := inTurn g r rfl
    obtain ⟨rfl, rfl⟩ := h.ledger_idle idle
    have alone := idle.entered g r.entry
    have settled : Settled (s.set s.world g r.entry) [r] [g] [] [] ⟨[], [], []⟩ ⟨[g], [r], []⟩ :=
      ⟨rfl, [], rfl, rfl, by simp⟩
    refine ⟨[], _, [], _, rfl, ?_, settled⟩
    cases r with
    | start channel message value bpm => exact .starting g channel message value bpm alone
    | stop => exact .checking g alone
  · exact serves_run h standing taken
  · simp only [step] at hs
    split at hs
    · rename_i live
      obtain ⟨ended, serves⟩ := h.exit live
      exact ⟨[.exit p], _, [], l, run_single.mpr ended, serves, .goes rfl rfl (List.append_nil _)⟩
    · cases hs

/-! ## Whole runs -/

/-- A handler that has finished stays so. -/
theorem finished_run {s t : State} {acts : List Act} {tr : List Shown} {g : Nat} {reply : Reply}
    (finished : s.pcs g = some (.finished reply)) (hr : run step s acts = some (t, tr)) :
    t.pcs g = some (.finished reply) := by
  refine @Runs.run_invariant _ _ _ _ (fun u _ => u.pcs g = some (.finished reply)) s t [] tr acts
    finished hr fun u seen a v out still hs => ?_
  rcases step_cases hs with ⟨k, r, -, fresh, rfl, -⟩ | ⟨k, forks, pc, w, pc', -, standing, taken, rfl⟩ |
    ⟨p, -, rfl, -⟩
  · rw [set_other]
    · exact still
    · rintro rfl
      rw [still] at fresh
      cases fresh
  · rw [set_other]
    · exact still
    · rintro rfl
      rw [still, Option.some.injEq] at standing
      subst standing
      cases taken
  · exact still

theorem Settled.append {u t : State} {requests requests' : List Request}
    {arrivals arrivals' : List Nat} {events events' : List Event} {replies replies' : List Reply}
    {l l' l'' : Ledger} (first : Settled u requests arrivals events replies l l')
    (second : Settled t requests' arrivals' events' replies' l' l'')
    (stays : ∀ g reply, u.pcs g = some (.finished reply) → t.pcs g = some (.finished reply)) :
    Settled t (requests ++ requests') (arrivals ++ arrivals') (events ++ events')
      (replies ++ replies') l l'' := by
  obtain ⟨served, done, active, answered, held⟩ := first
  obtain ⟨served', done', active', answered', held'⟩ := second
  refine ⟨?_, done ++ done', ?_, ?_, ?_⟩
  · rw [← List.append_assoc, served, List.append_assoc, served', List.filterMap_append,
      List.append_assoc]
  · rw [← List.append_assoc, active, List.append_assoc, active', List.map_append,
      List.append_assoc]
  · rw [← List.append_assoc, answered, List.append_assoc, answered', List.map_append,
      List.append_assoc]
  · intro d mem
    cases List.mem_append.mp mem with
    | inl before => exact stays d.1 d.2 (held d before)
    | inr later => exact held' d later

theorem serial_run {s t : State} {seen tr : List Shown} {w : World} {l : Ledger}
    {acts : List Act} (h : Serves s w l) (serial : Along step InTurn s seen acts)
    (hr : run step s acts = some (t, tr)) :
    ∃ events v replies l', run handle w events = some (v, replies) ∧ Serves t v l' ∧
      Settled t (acts.flatMap Act.requests) (acts.flatMap Act.arrivals) events replies l l' := by
  induction acts generalizing s seen tr w l with
  | nil =>
    cases hr
    exact ⟨[], w, [], l, rfl, h, .goes rfl rfl (List.append_nil _)⟩
  | cons a acts ih =>
    obtain ⟨u, out, rest, hs, htail, rfl⟩ := run_cons.mp hr
    obtain ⟨events, v, replies, l', front, serves, settled⟩ := serves_step h serial.1 hs
    obtain ⟨events', v', replies', l'', back, serves', settled'⟩ :=
      ih serves (serial.2 u out hs) htail
    exact ⟨events ++ events', v', replies ++ replies', l'',
      run_append.mpr ⟨v, replies, replies', front, back, rfl⟩, serves',
      settled.append settled' fun g reply finished => finished_run finished htail⟩

/-- **Requests one after another.** If each request arrives when no handler is
under way, then whenever none is again the run of the handlers has come to a
history of single steps: the same requests in the same order, the same world,
and in each handler the reply that its request got there. -/
theorem serial_refines (serialDev tapProcCmd : CStr) {acts : List Act} {s : State}
    {tr : List Shown} (h : run step (init serialDev tapProcCmd) acts = some (s, tr))
    (serial : Along step InTurn (init serialDev tapProcCmd) [] acts) (idle : Idle s) :
    ∃ events replies, run handle (launch serialDev tapProcCmd) events = some (s.world, replies) ∧
      events.filterMap requestOf = acts.flatMap Act.requests ∧
      (acts.flatMap Act.arrivals).map s.pcs = replies.map fun reply => some (.finished reply) := by
  have start : Serves (init serialDev tapProcCmd) (launch serialDev tapProcCmd) ⟨[], [], []⟩ :=
    .idle fun g pc there => by cases there
  obtain ⟨events, v, replies, l, ran, serves, settled⟩ := serial_run start serial h
  obtain ⟨rfl, rfl⟩ := serves.ledger_idle idle
  obtain ⟨served, done, active, answered, held⟩ := settled
  simp only [List.nil_append, List.append_nil] at served active answered
  refine ⟨events, replies, ran, served.symm, ?_⟩
  rw [active, answered, List.map_map, List.map_map]
  exact List.map_congr_left held

/-- A start and a stop, one after the other; the tapper ends in between. -/
def inTurn : List Act :=
  [.arrive 0 (.start "0".toList "44".toList "0".toList "120".toList), .run 0 true, .run 0 true] ++
  [.arrive 1 .stop, .run 1 true, .run 1 true, .exit 0, .run 1 true, .run 1 true, .run 1 true,
    .run 1 true]

theorem serial_refines_stop :
    ∃ s tr events, run step (init "/dev/serial0".toList "/usr/local/bin/midi-tapper".toList)
        inTurn = some (s, tr) ∧
      run handle (launch "/dev/serial0".toList "/usr/local/bin/midi-tapper".toList) events =
        some (s.world, [.ok, .ok]) := by
  have fresh : Idle (init "/dev/serial0".toList "/usr/local/bin/midi-tapper".toList) :=
    fun g pc there => by cases there
  obtain ⟨u, seen, s, tr, first, idle, second, idle', held⟩ : ∃ u seen s tr,
      run step (init "/dev/serial0".toList "/usr/local/bin/midi-tapper".toList) (inTurn.take 3) =
        some (u, seen) ∧ Idle u ∧
      run step u (inTurn.drop 3) = some (s, tr) ∧ Idle s ∧
      [0, 1].map s.pcs = [.ok, .ok].map fun reply => some (.finished reply) := by
    refine ⟨_, _, _, _, rfl, ((fresh.entered 0 _).moved _ _).finished _ _, rfl, ?_, rfl⟩
    exact ((((((Idle.entered (((fresh.entered 0 _).moved _ _).finished _ _) 1 _).moved _ _).moved
      _ _).moved _ _).moved _ _).moved _ _).finished _ _
  have both := run_append.mpr ⟨u, seen, tr, first, second, rfl⟩
  have later (as : List Act) (seen : List Shown) (u : State)
      (all : ∀ a ∈ as, a.arrivals = []) : Along step InTurn u seen as := by
    apply Runs.along_of_forall
    rintro a mem s seen g r rfl
    cases all _ mem
  have serial : Along step InTurn
      (init "/dev/serial0".toList "/usr/local/bin/midi-tapper".toList) [] inTurn := by
    apply Along.concat _ first
    · exact ⟨fun _ _ _ => idle, fun _ _ _ => later _ _ _ (by decide)⟩
    · exact ⟨fun _ _ _ => fresh, fun _ _ _ => later _ _ _ (by decide)⟩
  obtain ⟨events, replies, ran, -, told⟩ := serial_refines _ _ both serial idle'
  have same : replies = [.ok, .ok] := by
    have told' := held.symm.trans told
    rw [List.map_inj_right (by simp)] at told'
    exact told'.symm
  exact ⟨s, seen ++ tr, events, both, same ▸ ran⟩

end Handlers

end MidiGw.Gateway
