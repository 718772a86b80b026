import MgRobot.Lib.Runs
import Mathlib.Data.List.AList
import Mathlib.Data.Finset.Basic

/-!
# LogHub

The hub that streams the logs of containers to its subscribers: the subscriber
table, the task table, and every streaming task it has ever created, each at
one of the places where it waits. The event loop resumes a task with what it
waited for, or with the cancellation that was requested.
-/

namespace MgRobot.SystemManager

set_option autoImplicit false

open MgRobot.Lib.Runs

variable {σ ι : Type*}

/-- What subscribers are sent. -/
inductive LogEntry (σ : Type*) where
  | line (service : σ) (text : String)
  | error (service : σ) (text : String)
  deriving DecidableEq, Repr

/-- The bounded buffer of one connection. -/
structure Subscriber (σ : Type*) where
  maxEntries : Nat
  entries : List (LogEntry σ)
  dropped : Nat
  ready : Bool
  pos : 0 < maxEntries
  bounded : entries.length ≤ maxEntries

namespace Subscriber

variable (b : Subscriber σ)

def push (entry : LogEntry σ) : Subscriber σ :=
  if h : b.maxEntries ≤ b.entries.length then
    { b with
      entries := b.entries.tail ++ [entry]
      dropped := b.dropped + 1
      ready := true
      bounded := by
        have := b.pos
        have := b.bounded
        rw [List.length_append, List.length_tail, List.length_singleton]
        omega }
  else
    { b with
      entries := b.entries ++ [entry]
      ready := true
      bounded := by
        rw [List.length_append, List.length_singleton]
        omega }

/-- `drain`: the entries and the count of dropped ones, and the emptied buffer. -/
def drain : Subscriber σ × List (LogEntry σ) × Nat :=
  ({ b with entries := [], dropped := 0, ready := false, bounded := Nat.zero_le _ },
    b.entries, b.dropped)

theorem mem_push (entry : LogEntry σ) : entry ∈ (b.push entry).entries := by
  unfold push
  split <;> simp

end Subscriber

/-- Where a streaming task waits. -/
inductive StreamPc where
  | created
  | lookup (lastError : Option String)    -- `to_thread(get_container)`
  | sleeping (lastError : Option String)
  | spawning                              -- `create_subprocess_exec`
  | reading                               -- `readline`
  | exiting                               -- `wait` after the last line
  | unwinding                             -- `wait` in the `finally`, an exception is on its way
  | done
  deriving DecidableEq, Repr

/-- What `get_container` answers. -/
inductive LookupResult where
  | found
  | notFound
  | missingRef
  | raised
  deriving DecidableEq, Repr

/-- What a task is resumed with; `alive` says whether the docker process still runs. -/
inductive Wake where
  | start
  | lookup (result : LookupResult)
  | slept
  | spawned (ok : Bool)
  | line (raw : String)
  | eof
  | lineRaised (alive : Bool)
  | exited
  | reaped
  | cancelled (alive : Bool)
  deriving DecidableEq, Repr

def maxLineChars : Nat := 4000

/-- The text that `_follow` publishes for a line, if any. -/
def lineText (raw : String) : Option String :=
  let text := (raw.toList.reverse.dropWhile fun c => c.toNat = 10).reverse
  if text = [] then none else some (String.ofList (text.take maxLineChars))

namespace StreamPc

/-- The branch of `_stream` without a container. -/
def noContainer (service : σ) (lastError : Option String) (error : String) :
    StreamPc × List (LogEntry σ) :=
  (.sleeping (some error), if lastError = some error then [] else [.error service error])

/-- `_stream` and `_follow` from one wait to the next, with what they publish in between. -/
def resume (service : σ) : StreamPc → Wake → Option (StreamPc × List (LogEntry σ))
  | .created, .start => some (.lookup none, [])
  | .lookup _, .lookup .found => some (.spawning, [])
  | .lookup lastError, .lookup .notFound => some (noContainer service lastError "container not found")
  | .lookup lastError, .lookup .missingRef =>
      some (noContainer service lastError "container reference missing")
  | .lookup _, .lookup .raised => some (.done, [])
  | .sleeping lastError, .slept => some (.lookup lastError, [])
  | .spawning, .spawned true => some (.reading, [])
  | .spawning, .spawned false => some (.done, [])
  | .reading, .line raw => some (.reading, ((lineText raw).map (LogEntry.line service)).toList)
  | .reading, .eof => some (.exiting, [])
  | .reading, .lineRaised true => some (.unwinding, [])
  | .reading, .lineRaised false => some (.done, [])
  | .exiting, .exited => some (.sleeping none, [])
  | .unwinding, .reaped => some (.done, [])
  | _, _ => none

/-- `CancelledError` is raised where the task waits. -/
def cancel : StreamPc → Bool → StreamPc
  | .reading, true | .exiting, true => .unwinding
  | _, _ => .done

/-- The wake takes a task that is not cancelled out of its loop for good. -/
def raises : StreamPc → Wake → Bool
  | .lookup _, .lookup .raised | .spawning, .spawned false | .reading, .lineRaised false
  | .unwinding, .reaped => true
  | _, _ => false

theorem resume_eq_done {service : σ} {pc pc' : StreamPc} {w : Wake} {out : List (LogEntry σ)}
    (h : pc.resume service w = some (pc', out)) : pc' = .done ↔ pc.raises w = true := by
  unfold resume at h
  split at h <;> cases h <;> simp [raises]

end StreamPc

structure StreamTask (σ : Type*) where
  service : σ
  /-- `cancel()` has been called. -/
  cancelled : Bool
  pc : StreamPc
  deriving DecidableEq, Repr

/-- `created` has every task there has been, and `_tasks` points into it. -/
structure LogHub (σ ι : Type*) where
  subscribers : AList fun _ : σ => Finset ι
  tasks : AList fun _ : σ => Nat
  created : List (StreamTask σ)
  buffers : ι → Subscriber σ

inductive HubEvent (σ ι : Type*) where
  | setServices (subscriber : ι) (services : List σ)
  | removeSubscriber (subscriber : ι)
  | drain (subscriber : ι)
  | wake (id : Nat) (w : Wake)

namespace LogHub

/-- `__init__`, with the buffers that connections will bring. -/
def init (buffers : ι → Subscriber σ) : LogHub σ ι := ⟨∅, ∅, [], buffers⟩

variable [DecidableEq σ]

def subscribersOf (s : LogHub σ ι) (service : σ) : Finset ι := (s.subscribers.lookup service).getD ∅

section Operations

variable [DecidableEq ι] (s : LogHub σ ι)

/-- `_add`. -/
def add (service : σ) (subscriber : ι) : LogHub σ ι :=
  let s := { s with
    subscribers := s.subscribers.insert service (insert subscriber (s.subscribersOf service)) }
  if service ∈ s.tasks then s
  else
    { s with
      tasks := s.tasks.insert service s.created.length
      created := s.created ++ [⟨service, false, .created⟩] }

/-- `_remove`. -/
def remove (service : σ) (subscriber : ι) : LogHub σ ι :=
  match s.subscribers.lookup service with
  | none => s
  | some set =>
      let set := set.erase subscriber
      if set ≠ ∅ then { s with subscribers := s.subscribers.insert service set }
      else
        let s := { s with subscribers := s.subscribers.erase service }
        match s.tasks.lookup service with
        | none => s
        | some id =>
            { s with
              tasks := s.tasks.erase service
              created := s.created.modify id fun t => { t with cancelled := true } }

/-- `set_services`; the services are a set in some order. -/
def setServices (subscriber : ι) (services : List σ) : LogHub σ ι :=
  let left := s.subscribers.keys.filter fun service => service ∉ services
  let s := left.foldl (fun s service => s.remove service subscriber) s
  services.foldl (fun s service => s.add service subscriber) s

def removeSubscriber (subscriber : ι) : LogHub σ ι :=
  s.subscribers.keys.foldl (fun s service => s.remove service subscriber) s

/-- `_publish`. -/
def publish (service : σ) (entries : List (LogEntry σ)) : LogHub σ ι :=
  { s with
    buffers := fun i =>
      if i ∈ s.subscribersOf service then entries.foldl Subscriber.push (s.buffers i)
      else s.buffers i }

/-- A task goes on: a cancelled one only with its cancellation, or out of its `finally`. -/
def wake (id : Nat) (w : Wake) : Option (LogHub σ ι) :=
  match s.created[id]? with
  | none => none
  | some t =>
      match w, t.cancelled, t.pc with
      | .cancelled _, _, .done => none
      | .cancelled alive, true, pc =>
          some { s with created := s.created.set id { t with pc := pc.cancel alive } }
      | .reaped, _, pc | _, false, pc =>
          (pc.resume t.service w).map fun r =>
            { s with created := s.created.set id { t with pc := r.1 } }.publish t.service r.2
      | _, _, _ => none

def step : HubEvent σ ι → Option (LogHub σ ι)
  | .setServices subscriber services => some (s.setServices subscriber services)
  | .removeSubscriber subscriber => some (s.removeSubscriber subscriber)
  | .drain subscriber =>
      some { s with
        buffers := Function.update s.buffers subscriber (s.buffers subscriber).drain.1 }
  | .wake id w => s.wake id w

end Operations

variable (s : LogHub σ ι)

/-- The live tasks of a service whose cancellation has not been requested. -/
def streams (service : σ) : List (StreamTask σ) :=
  s.created.filter fun t => t.service = service ∧ t.cancelled = false ∧ t.pc ≠ .done

/-- The live tasks of a service. -/
def liveTasks (service : σ) : List (StreamTask σ) :=
  s.created.filter fun t => t.service = service ∧ t.pc ≠ .done

/-- Cancellations have completed. -/
def Settled : Prop := ∀ t ∈ s.created, t.cancelled = true → t.pc = .done

/-- Every service with subscribers is streamed once, and no other is. -/
def StreamsOnce : Prop :=
  ∀ service, (s.streams service).length = if (s.subscribersOf service).Nonempty then 1 else 0

end LogHub

end MgRobot.SystemManager
