import Ambient.Misuse
import Ambient.Registry
import Ambient.Thread

/-!
# Processes

A process is a number of threads, the registry of the crossers they hold, and
the records written so far.  The client is whatever state the code that runs
on the threads has of its own.  A thread that was never mentioned is fresh.
-/

namespace Ambient

/-- In a debug build misuses are raised and descriptions are recorded. -/
inductive Build where
  | debug
  | release
deriving DecidableEq, Repr

structure Process (Client : Type) where
  threads : Table ThreadId Thread
  registry : Registry
  /-- The records not yet taken, latest first. -/
  records : List Record
  client : Client

namespace Process

variable {Client : Type}

def start (client : Client) : Process Client :=
  ⟨.empty, .empty, [], client⟩

def thread (process : Process Client) (id : ThreadId) : Thread :=
  (process.threads.find? id).getD .fresh

def setThread (process : Process Client) (id : ThreadId) (thread : Thread) :
    Process Client :=
  { process with threads := process.threads.insert id thread }

/-- The records not yet taken, in the order in which they were written. -/
def log (process : Process Client) : List Record :=
  process.records.reverse

def write (process : Process Client) (record : Record) : Process Client :=
  { process with records := record :: process.records }

@[simp] theorem thread_setThread (process : Process Client) (id other : ThreadId)
    (thread : Thread) :
    (process.setThread id thread).thread other =
      if id = other then thread else process.thread other := by
  by_cases same : id = other <;> simp [setThread, Process.thread, same]

@[simp] theorem log_write (process : Process Client) (record : Record) :
    (process.write record).log = process.log ++ [record] := by
  simp [write, log]

@[simp] theorem log_setThread (process : Process Client) (id : ThreadId)
    (thread : Thread) : (process.setThread id thread).log = process.log :=
  rfl

@[simp] theorem thread_write (process : Process Client) (record : Record)
    (id : ThreadId) : (process.write record).thread id = process.thread id :=
  rfl

end Process

end Ambient
