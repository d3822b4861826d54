import CCraft.Lib.Reach
import CCraft.Lib.ThreadGroups

/-!
# A bounded buffer with one condition variable

A queue with a bounded number of places, and threads that take items from it or put items into it.
A thread that finds nothing to take, or no place, waits.  Each time an item has been taken or put
one of the waiting threads is woken, of either kind, and looks again.  Only the numbers are kept:
of the items and the free places, and of the threads outside, waiting and woken.  Putting is taking
with the items and the places exchanged.

Main results:

- Theorem {lit}`noStall_iff`: for which numbers of places and threads no thread waits for something
  that is there.
-/

namespace BoundedBuffer

open Runs ThreadGroups

/-! ## The system -/

/-- The items and the free places, and the threads that take and that put. -/
structure Counts where
  items : Nat
  room : Nat
  takers : Group
  putters : Group

/-- Who is woken: nobody, a thread of the same kind, or one of the other kind. -/
inductive Wake where
  | nobody
  | own
  | other

/-- A thread takes or puts, on its first attempt or after it has been woken. -/
inductive Label where
  | take (again : Bool) (wake : Wake)
  | put (again : Bool) (wake : Wake)

/-- One waiting thread of the two kinds is woken, if there is one. -/
def notify (own other : Group) : Wake → Option (Group × Group)
  | .nobody => if own.waiting = 0 ∧ other.waiting = 0 then some (own, other) else none
  | .own => own.wake.map fun g => (g, other)
  | .other => other.wake.map fun g => (own, g)

/-- The same thread, as the other kind of threads sees it. -/
def Wake.swap : Wake → Wake
  | nobody => nobody
  | own => other
  | other => own

theorem Wake.swap_swap (w : Wake) : w.swap.swap = w := by
  cases w <;> rfl

theorem notify_swap (own other : Group) (w : Wake) :
    notify other own w.swap = (notify own other w).map Prod.swap := by
  cases w with
  | nobody =>
    by_cases h : own.waiting = 0 ∧ other.waiting = 0
    · simp [notify, Wake.swap, h]
    · simp [notify, Wake.swap, h, and_comm]
  | own | other => simp [notify, Wake.swap, Function.comp_def]

/-- A thread takes an item and wakes another thread, or waits. -/
def take (s : Counts) (again : Bool) (w : Wake) : Option Counts :=
  (s.takers.start again).bind fun g =>
    if s.items = 0 then
      match w with
      | .nobody => some { s with takers := { g with waiting := g.waiting + 1 } }
      | _ => none
    else
      (notify { g with outside := g.outside + 1 } s.putters w).map fun gs =>
        ⟨s.items - 1, s.room + 1, gs.1, gs.2⟩

/-- Items and places exchanged. -/
def Counts.mirror (s : Counts) : Counts :=
  ⟨s.room, s.items, s.putters, s.takers⟩

/-- One step. -/
def step (s : Counts) : Label → Option Counts
  | .take again w => take s again w
  | .put again w => (take s.mirror again w).map Counts.mirror

/-- An empty queue, with all threads outside. -/
def empty (places takers putters : Nat) : Counts :=
  ⟨0, places, ⟨takers, 0, 0⟩, ⟨putters, 0, 0⟩⟩

/-- When no woken thread is left, no thread waits for something that is there, and threads of one
kind only wait. -/
def NoStall (s : Counts) : Prop :=
  s.takers.woken = 0 → s.putters.woken = 0 →
    (0 < s.takers.waiting → s.items = 0) ∧ (0 < s.putters.waiting → s.room = 0) ∧
      ¬ (0 < s.takers.waiting ∧ 0 < s.putters.waiting)

/-! ## Exchanging items and places -/

def Label.mirror : Label → Label
  | .take again w => .put again w
  | .put again w => .take again w

theorem step_mirror {s s' : Counts} {l : Label} (h : step s l = some s') :
    step s.mirror l.mirror = some s'.mirror := by
  cases l with
  | take again w =>
    show (take s.mirror.mirror again w).map Counts.mirror = some s'.mirror
    exact congrArg (Option.map Counts.mirror) h
  | put again w =>
    obtain ⟨t, ht, rfl⟩ := Option.map_eq_some_iff.1 h
    exact ht

theorem reaches_mirror {s t : Counts} (h : Reaches step s t) :
    Reaches step s.mirror t.mirror :=
  h.map (I := fun _ => True) Counts.mirror (fun _ _ _ _ _ => trivial)
    (fun _ l _ _ hstep => ⟨l.mirror, step_mirror hstep⟩) trivial

theorem noStall_mirror {s : Counts} : NoStall s.mirror ↔ NoStall s := by
  unfold NoStall Counts.mirror
  tauto

/-! ## What one step does -/

/-- A thread waits, or takes an item and wakes nobody, a thread of its own kind or another. -/
theorem take_eq_some {s s' : Counts} {again : Bool} {w : Wake} (h : take s again w = some s') :
    ∃ o v, s.takers.Started o v ∧
      (s.items = 0 ∧ s' = ⟨0, s.room, ⟨o, s.takers.waiting + 1, v⟩, s.putters⟩ ∨
        0 < s.items ∧ (
          s.takers.waiting = 0 ∧ s.putters.waiting = 0 ∧
            s' = ⟨s.items - 1, s.room + 1, ⟨o + 1, 0, v⟩, s.putters⟩ ∨
          0 < s.takers.waiting ∧
            s' = ⟨s.items - 1, s.room + 1, ⟨o + 1, s.takers.waiting - 1, v + 1⟩, s.putters⟩ ∨
          0 < s.putters.waiting ∧
            s' = ⟨s.items - 1, s.room + 1, ⟨o + 1, s.takers.waiting, v⟩,
              ⟨s.putters.outside, s.putters.waiting - 1, s.putters.woken + 1⟩⟩)) := by
  obtain ⟨g, hstart, hrest⟩ := Option.bind_eq_some_iff.1 h
  have hstarted := Group.start_eq_some hstart
  refine ⟨g.outside, g.woken, hstarted.1, ?_⟩
  rw [← hstarted.2]
  by_cases hitems : s.items = 0
  · rw [if_pos hitems] at hrest
    cases w with
    | nobody =>
      cases hrest
      exact .inl ⟨hitems, by rw [hitems]⟩
    | own | other => cases hrest
  · rw [if_neg hitems] at hrest
    refine .inr ⟨Nat.pos_of_ne_zero hitems, ?_⟩
    obtain ⟨gs, hnotify, rfl⟩ := Option.map_eq_some_iff.1 hrest
    cases w with
    | nobody =>
      obtain ⟨⟨hown, hother⟩, ⟨⟩⟩ := Option.ite_none_right_eq_some.1 hnotify
      exact .inl ⟨hown, hother, by rw [show g.waiting = 0 from hown]⟩
    | own =>
      obtain ⟨g', hwake, rfl⟩ := Option.map_eq_some_iff.1 hnotify
      obtain ⟨hpos, ⟨⟩⟩ := Option.ite_none_right_eq_some.1 hwake
      exact .inr (.inl ⟨hpos, rfl⟩)
    | other =>
      obtain ⟨g', hwake, rfl⟩ := Option.map_eq_some_iff.1 hnotify
      obtain ⟨hpos, ⟨⟩⟩ := Option.ite_none_right_eq_some.1 hwake
      exact .inr (.inr ⟨hpos, rfl⟩)

/-- The numbers that no step changes. -/
structure Sized (m p c : Nat) (s : Counts) : Prop where
  places : s.items + s.room = m
  putters : s.putters.outside + s.putters.waiting + s.putters.woken = p
  takers : s.takers.outside + s.takers.waiting + s.takers.woken = c

variable {s s' t : Counts} {m p c : Nat} {again : Bool} {w : Wake} {l : Label}

theorem Sized.mirror (h : Sized m p c s) : Sized m c p s.mirror :=
  ⟨(Nat.add_comm ..).trans h.places, h.takers, h.putters⟩

theorem Sized.take (h : Sized m p c s) (hstep : take s again w = some s') : Sized m p c s' := by
  obtain ⟨hplaces, hputters, htakers⟩ := h
  obtain ⟨o, v, hstart, hcases⟩ := take_eq_some hstep
  unfold Group.Started at hstart
  rcases hcases with ⟨hitems, rfl⟩ | ⟨hitems, ⟨hown, hother, rfl⟩ | ⟨hown, rfl⟩ | ⟨hother, rfl⟩⟩ <;>
    constructor <;> dsimp only <;> omega

theorem Sized.step (h : Sized m p c s) (hstep : step s l = some s') : Sized m p c s' := by
  cases l with
  | take again w => exact h.take hstep
  | put again w =>
    obtain ⟨t, ht, rfl⟩ := Option.map_eq_some_iff.1 hstep
    exact (h.mirror.take ht).mirror

/-- No thread waits and none is woken. -/
def Calm (s : Counts) : Prop :=
  (s.takers.waiting = 0 ∧ s.takers.woken = 0) ∧ s.putters.waiting = 0 ∧ s.putters.woken = 0

/-! ## At most as many threads of each kind as places -/

/-- While threads of one kind wait, those of the other kind do not, and there are as many woken
threads as things to take or to put. -/
structure Balanced (s : Counts) : Prop where
  takers : 0 < s.takers.waiting → s.items ≤ s.takers.woken
  putters : 0 < s.putters.waiting → s.room ≤ s.putters.woken
  apart : ¬ (0 < s.takers.waiting ∧ 0 < s.putters.waiting)

theorem Balanced.mirror (h : Balanced s) : Balanced s.mirror :=
  ⟨h.putters, h.takers, fun hboth => h.apart hboth.symm⟩

theorem Balanced.take (h : Balanced s) (hsized : Sized m p c s) (hp : p ≤ m)
    (hstep : take s again w = some s') : Balanced s' := by
  obtain ⟨htakers, hputters, hapart⟩ := h
  obtain ⟨hplaces, hputterSize, htakerSize⟩ := hsized
  obtain ⟨o, v, hstart, hcases⟩ := take_eq_some hstep
  unfold Group.Started at hstart
  rcases hcases with ⟨hitems, rfl⟩ | ⟨hitems, ⟨hown, hother, rfl⟩ | ⟨hown, rfl⟩ | ⟨hother, rfl⟩⟩ <;>
    constructor <;> dsimp only <;> omega

theorem Balanced.step (h : Balanced s) (hsized : Sized m p c s) (hp : p ≤ m) (hc : c ≤ m)
    (hstep : step s l = some s') : Balanced s' := by
  cases l with
  | take again w => exact h.take hsized hp hstep
  | put again w =>
    obtain ⟨t, ht, rfl⟩ := Option.map_eq_some_iff.1 hstep
    exact (h.mirror.take hsized.mirror hc ht).mirror

/-- With at most as many threads of each kind as places nothing stalls. -/
theorem noStall_of_le (hsized : Sized m p c s) (hcalm : Calm s) (hm : 0 < m) (hp : p ≤ m)
    (hc : c ≤ m) (h : Reaches step s t) : NoStall t := by
  obtain ⟨⟨htaker, -⟩, hputter, -⟩ := hcalm
  have hbalanced : Balanced s := ⟨by omega, by omega, by omega⟩
  have hinv := h.invariant (I := fun s => Sized m p c s ∧ Balanced s)
    (fun s l s' hI hstep => ⟨hI.1.step hstep, hI.2.step hI.1 hp hc hstep⟩) ⟨hsized, hbalanced⟩
  obtain ⟨⟨hplaces, -, -⟩, htakers, hputters, -⟩ := hinv
  intro htakerWoken hputterWoken
  refine ⟨by omega, by omega, by omega⟩

/-! ## At most one thread that puts -/

/-- There are as many woken threads as items to take while threads wait to take them, and while a
thread waits to put either all places are taken and nobody waits to take, or there are as many
woken threads as places. -/
structure Single (m : Nat) (s : Counts) : Prop where
  takers : 0 < s.takers.waiting → s.items ≤ s.takers.woken
  putters : 0 < s.putters.waiting → s.takers.waiting < s.items ∧
    (s.room = 0 ∧ s.takers.waiting = 0 ∨ m ≤ s.takers.woken)

theorem Single.step (h : Single m s) (hsized : Sized m p c s) (hp : p = 0 ∨ p = 1 ∧ c < 2 * m)
    (hstep : step s l = some s') : Single m s' := by
  obtain ⟨htakers, hputters⟩ := h
  obtain ⟨hplaces, hputterSize, htakerSize⟩ := hsized
  cases l with
  | take again w =>
    obtain ⟨o, v, hstart, hcases⟩ := take_eq_some hstep
    unfold Group.Started at hstart
    rcases hcases with
        ⟨hitems, rfl⟩ | ⟨hitems, ⟨hown, hother, rfl⟩ | ⟨hown, rfl⟩ | ⟨hother, rfl⟩⟩ <;>
      constructor <;> dsimp only <;> omega
  | put again w =>
    obtain ⟨t, ht, rfl⟩ := Option.map_eq_some_iff.1 hstep
    obtain ⟨o, v, hstart, hcases⟩ := take_eq_some ht
    unfold Group.Started at hstart
    dsimp only [Counts.mirror] at hstart hcases
    rcases hcases with
        ⟨hitems, rfl⟩ | ⟨hitems, ⟨hown, hother, rfl⟩ | ⟨hown, rfl⟩ | ⟨hother, rfl⟩⟩ <;>
      constructor <;> dsimp only [Counts.mirror] <;> omega

/-- With at most one thread that puts, and less than twice as many that take as places, nothing
stalls. -/
theorem noStall_of_single (hsized : Sized m p c s) (hcalm : Calm s) (hm : 0 < m)
    (hp : p = 0 ∨ p = 1 ∧ c < 2 * m) (h : Reaches step s t) : NoStall t := by
  obtain ⟨⟨htaker, -⟩, hputter, -⟩ := hcalm
  have hsingle : Single m s := ⟨by omega, by omega⟩
  have hinv := h.invariant (I := fun s => Sized m p c s ∧ Single m s)
    (fun s l s' hI hstep => ⟨hI.1.step hstep, hI.2.step hI.1 hp hstep⟩) ⟨hsized, hsingle⟩
  obtain ⟨⟨hplaces, -, -⟩, htakers, hputters⟩ := hinv
  intro htakerWoken hputterWoken
  refine ⟨by omega, by omega, by omega⟩

/-- The same with takers and putters exchanged. -/
theorem noStall_of_single_taker (hsized : Sized m p c s) (hcalm : Calm s) (hm : 0 < m)
    (hc : c = 0 ∨ c = 1 ∧ p < 2 * m) (h : Reaches step s t) : NoStall t :=
  noStall_mirror.1 (noStall_of_single hsized.mirror ⟨hcalm.2, hcalm.1⟩ hm hc (reaches_mirror h))

/-! ## Phases of a stalling run -/

variable {k r o v x : Nat} {g : Group}

/-- Threads come to take from the empty queue, and wait. -/
theorem takers_wait (n : Nat) :
    Reaches step ⟨0, r, ⟨n + o, x, v⟩, g⟩ ⟨0, r, ⟨o, x + n, v⟩, g⟩ := by
  let f (left done : Nat) : Counts := ⟨0, r, ⟨left + o, done, v⟩, g⟩
  have hphase : ∀ left done, Reaches step (f (left + 1) done) (f left (done + 1)) := by
    intro left done
    refine .single (a := .take false .nobody) ?_
    simp [f, step, take, Group.start, Nat.add_right_comm]
  simpa [f] using Reaches.transfer f hphase n x

/-- Woken threads find the queue empty, and wait again. -/
theorem woken_takers_wait (n : Nat) :
    Reaches step ⟨0, r, ⟨o, x, n⟩, g⟩ ⟨0, r, ⟨o, x + n, 0⟩, g⟩ := by
  let f (left done : Nat) : Counts := ⟨0, r, ⟨o, done, left⟩, g⟩
  have hphase : ∀ left done, Reaches step (f (left + 1) done) (f left (done + 1)) := by
    intro left done
    refine .single (a := .take true .nobody) ?_
    simp [f, step, take, Group.start]
  exact Reaches.transfer f hphase n x

/-- A thread puts items, and each time a thread is woken that waits to take one. -/
theorem puts_wake_takers (n : Nat) :
    Reaches step ⟨0, n, ⟨o, n + x, 0⟩, ⟨v + 1, 0, 0⟩⟩ ⟨n, 0, ⟨o, x, n⟩, ⟨v + 1, 0, 0⟩⟩ := by
  let f (left done : Nat) : Counts := ⟨done, left, ⟨o, left + x, done⟩, ⟨v + 1, 0, 0⟩⟩
  have hphase : ∀ left done, Reaches step (f (left + 1) done) (f left (done + 1)) := by
    intro left done
    refine .single (a := .put false .other) ?_
    simp [f, step, take, Group.start, notify, Group.wake, Counts.mirror, Nat.add_right_comm]
  simpa [f] using Reaches.transfer f hphase n 0

/-- A thread finds no place, and waits. -/
theorem putter_waits : Reaches step ⟨k, 0, g, ⟨o + 1, x, v⟩⟩ ⟨k, 0, g, ⟨o, x + 1, v⟩⟩ := by
  refine .single (a := .put false .nobody) ?_
  simp [step, take, Group.start, Counts.mirror]

/-- Nobody waits, and a thread puts items into all places. -/
theorem empty_reaches_full (hp : 0 < p) : Reaches step (empty m c p) (empty m p c).mirror := by
  obtain ⟨o, rfl⟩ : ∃ o, p = o + 1 := ⟨p - 1, by omega⟩
  let f (left done : Nat) : Counts := ⟨done, left, ⟨c, 0, 0⟩, ⟨o + 1, 0, 0⟩⟩
  have hphase : ∀ left done, Reaches step (f (left + 1) done) (f left (done + 1)) := by
    intro left done
    refine .single (a := .put false .nobody) ?_
    simp [f, step, take, Group.start, notify, Counts.mirror]
  simpa [f, empty, Counts.mirror] using Reaches.transfer f hphase m 0

/-! ## Stalls -/

/-- With twice as many takers as places: the woken takers wake the other takers, which find the
queue empty, and a thread that waits to put is never woken. -/
theorem stall_of_many_takers (hm : 0 < m) (hp : 0 < p) (hc : 2 * m ≤ c) :
    ∃ t, Reaches step (empty m c p) t ∧ ¬ NoStall t := by
  obtain ⟨x, rfl⟩ : ∃ x, c = (m + m) + x := ⟨c - (m + m), by omega⟩
  obtain ⟨y, rfl⟩ : ∃ y, p = y + 1 := ⟨p - 1, by omega⟩
  let f (left done : Nat) : Counts := ⟨left, done, ⟨x + done, left, m⟩, ⟨y, 1, 0⟩⟩
  have hphase : ∀ left done, Reaches step (f (left + 1) done) (f left (done + 1)) := by
    intro left done
    have hwoken : m - 1 + 1 = m := by omega
    refine .single (a := .take true .own) ?_
    simp [f, step, take, Group.start, notify, Group.wake, hm, Nat.add_assoc, hwoken]
  refine ⟨⟨0, m, ⟨x + m, m, 0⟩, ⟨y, 1, 0⟩⟩, ?_, ?_⟩
  · have hwait : Reaches step (empty m (m + m + x) (y + 1)) _ := takers_wait (m + m)
    have hput := puts_wake_takers (o := x) (x := m) (v := y) m
    have htake := Reaches.transfer f hphase m 0
    have hlast := woken_takers_wait (r := m) (o := x + m) (x := 0) (g := ⟨y, 1, 0⟩) m
    simp only [f, Nat.zero_add, Nat.add_zero] at hwait hput htake hlast
    exact hwait.trans (hput.trans (putter_waits.trans (htake.trans hlast)))
  · intro hno
    exact hm.ne' ((hno rfl rfl).2.1 Nat.one_pos)

/-- With more takers than places and two putters: one taker keeps waiting, while the putters wake
each other and find no place. -/
theorem stall_of_two_putters (hm : 0 < m) (hp : 2 ≤ p) (hc : m < c) :
    ∃ t, Reaches step (empty m c p) t ∧ ¬ NoStall t := by
  obtain ⟨x, rfl⟩ : ∃ x, c = (m + 1) + x := ⟨c - (m + 1), by omega⟩
  obtain ⟨y, rfl⟩ : ∃ y, p = y + 2 := ⟨p - 2, by omega⟩
  obtain ⟨n, rfl⟩ : ∃ n, m = n + 1 := ⟨m - 1, by omega⟩
  let f (left done : Nat) : Counts := ⟨n + 1, 0, ⟨x + done, 1, left⟩, ⟨y, 2, 0⟩⟩
  have hphase : ∀ left done, Reaches step (f (left + 1) done) (f left (done + 1)) := by
    intro left done
    have htake : step (f (left + 1) done) (.take true .other) =
        some ⟨n, 1, ⟨x + done + 1, 1, left⟩, ⟨y, 1, 1⟩⟩ := by
      simp [f, step, take, Group.start, notify, Group.wake]
    have hput : step ⟨n, 1, ⟨x + done + 1, 1, left⟩, ⟨y, 1, 1⟩⟩ (.put true .own) =
        some ⟨n + 1, 0, ⟨x + done + 1, 1, left⟩, ⟨y + 1, 0, 1⟩⟩ := by
      simp [step, take, Group.start, notify, Group.wake, Counts.mirror]
    have hwait : step ⟨n + 1, 0, ⟨x + done + 1, 1, left⟩, ⟨y, 1, 1⟩⟩ (.put true .nobody) =
        some (f left (done + 1)) := by
      simp [f, step, take, Group.start, Counts.mirror, Nat.add_assoc]
    exact .head htake (.head hput (putter_waits.trans (.single hwait)))
  refine ⟨⟨n + 1, 0, ⟨x + (n + 1), 1, 0⟩, ⟨y, 2, 0⟩⟩, ?_, ?_⟩
  · have hwait : Reaches step (empty (n + 1) (n + 1 + 1 + x) (y + 2)) _ := takers_wait (n + 1 + 1)
    have hput := puts_wake_takers (o := x) (x := 1) (v := y + 1) (n + 1)
    have hloop := Reaches.transfer f hphase (n + 1) 0
    simp only [f, Nat.zero_add, Nat.add_zero] at hwait hput hloop
    exact hwait.trans (hput.trans (putter_waits.trans (putter_waits.trans hloop)))
  · intro hno
    exact Nat.succ_ne_zero n ((hno rfl rfl).1 Nat.one_pos)

/-- A stall with takers and putters exchanged, after all places have been filled. -/
theorem stall_mirror (hp : 0 < p) (h : ∃ t, Reaches step (empty m p c) t ∧ ¬ NoStall t) :
    ∃ t, Reaches step (empty m c p) t ∧ ¬ NoStall t := by
  obtain ⟨t, hreach, hstall⟩ := h
  have hreach' := (empty_reaches_full hp).trans (reaches_mirror hreach)
  exact ⟨t.mirror, hreach', mt noStall_mirror.1 hstall⟩

/-- Nothing stalls exactly if threads of one kind are missing, if there are at most as many threads
of each kind as places, or if there is one thread of one kind and less than twice as many of the
other as places. -/
theorem noStall_iff (hm : 0 < m) :
    (∀ t, Reaches step (empty m c p) t → NoStall t) ↔
      p = 0 ∨ c = 0 ∨ p ≤ m ∧ c ≤ m ∨ p = 1 ∧ c < 2 * m ∨ c = 1 ∧ p < 2 * m := by
  have hsized : Sized m p c (empty m c p) := ⟨by simp [empty], rfl, rfl⟩
  have hcalm : Calm (empty m c p) := ⟨⟨rfl, rfl⟩, rfl, rfl⟩
  constructor
  · intro hall
    by_contra hnot
    have hstall : ∃ t, Reaches step (empty m c p) t ∧ ¬ NoStall t := by
      by_cases htakers : 2 * m ≤ c
      · exact stall_of_many_takers hm (by omega) htakers
      · by_cases hputters : 2 * m ≤ p
        · exact stall_mirror (by omega) (stall_of_many_takers hm (by omega) hputters)
        · by_cases hmore : m < c
          · exact stall_of_two_putters hm (by omega) hmore
          · exact stall_mirror (by omega) (stall_of_two_putters hm (by omega) (by omega))
    obtain ⟨t, hreach, hstall⟩ := hstall
    exact hstall (hall t hreach)
  · rintro (hp | hc | ⟨hp, hc⟩ | hp | hc) t hreach
    · exact noStall_of_single hsized hcalm hm (.inl hp) hreach
    · exact noStall_of_single_taker hsized hcalm hm (.inl hc) hreach
    · exact noStall_of_le hsized hcalm hm hp hc hreach
    · exact noStall_of_single hsized hcalm hm (.inr hp) hreach
    · exact noStall_of_single_taker hsized hcalm hm (.inr hc) hreach

end BoundedBuffer
