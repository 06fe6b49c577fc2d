import InmemRuntime.AssistantsDelete
import InmemRuntime.CronRuns
import InmemRuntime.Lib.NamedList

namespace InmemRuntime

deriving instance Inhabited for Cron

/-- The runtime, and its crons as the records and the list objects that they are. -/
structure CronStore where
  runtime : Runtime
  crons : NamedList Cron

def allows (metadata : PyDict) (filters : PyVal) : Bool :=
  match filtersAllow metadata filters with
  | .ok allowed => allowed
  | .error _ => false

namespace Crons

/-- The three tests of the loop. -/
def isDue (now : Time) (cron : Cron) : Bool :=
  cron.enabled && !cron.endTime.any (fun endTime => endTime < now) && !decide (now < cron.nextRunDate)

/-- Where a consumer of `next` waits: before the first item, or in the loop. -/
inductive Next where
  | called
  | iterating (now : Time) (place : Iteration)

def Next.step (σ : CronStore) (now : Time) (place : Iteration) : Turn Next (Option (Cron × Time)) :=
  match σ.crons.next? (isDue now) place with
  | none => .finished none
  | some (r, place) => .yielded (some (σ.crons.current.get r, now)) (.iterating now place)

/-- `Crons.next`: the clock and the list are read once, the records when they are reached. -/
def Next.resume (σ : CronStore) (reply : Reply) : Next → Turn Next (Option (Cron × Time))
  | .called => Next.step σ reply.now ⟨σ.crons.object, 0⟩
  | .iterating now place => Next.step σ now place

/-- The test of the comprehension that a turn assigns to `store["crons"]`, if
it comes to that. -/
def Delete.keeps? (s : Runtime) (reply : Reply) : Delete → Option (Cron → Bool)
  | .called _ => none
  | .authorizing cronId =>
    match reply.answer with
    | .error _ => none
    | .ok filters =>
      match Delete.remaining cronId filters s.crons with
      | .error _ => none
      | .ok _ => some (fun cron => !(byCronId cronId cron && allows cron.metadata filters))

end Crons

def Threads.Delete.keeps? (s : Runtime) (reply : Reply) : Threads.Delete → Option (Cron → Bool)
  | .called _ | .deletingCheckpoints _ _ | .authorizing _ none => none
  | .authorizing threadId (some (_, matching)) =>
    match reply.answer with
    | .error _ => none
    | .ok filters =>
      if allows (s.threads.get matching).metadata filters then some (fun cron => cron.threadId ≠ some threadId)
      else none

def Assistants.Delete.keeps? (serde : Serde) (s : Runtime) (reply : Reply) : Assistants.Delete → Option (Cron → Bool)
  | .called _ _ | .authorizing _ _ | .skipping _ _ | .task _ => none
  | .deletingThread _ deletion _ => deletion.keeps? s reply
  | .cancelling assistantId cancel =>
    match (Runs.Cancel.resume serde s cancel reply).2 with
    | .finished (.ok _) => some (fun cron => cron.assistantId ≠ assistantId)
    | _ => none

/-- A consumer of `Crons.next` with what it has received, and the writers. -/
inductive ScheduleCall where
  | next (generator : Crons.Next) (received : List (Cron × Time))
  | write (p : CronCall)
  | assistantsDelete (p : Assistants.Delete)

inductive ScheduleResult where
  | handed (cron : Cron) (now : Time)
  | exhausted
  | wrote (result : CronResult)
  | deleted (outcome : Except PyError (List Uuid))

namespace ScheduleCall

def keeps? (serde : Serde) (s : Runtime) (reply : Reply) : ScheduleCall → Option (Cron → Bool)
  | .write (.delete p) => p.keeps? s reply
  | .write (.threadsDelete p) => p.keeps? s reply
  | .assistantsDelete p => p.keeps? serde s reply
  | _ => none

end ScheduleCall

/-- A comprehension makes another list object. Everything else that is written
to the crons is an append or an assignment to a record. -/
def CronStore.store (σ : CronStore) (keeps : Option (Cron → Bool)) (s : Runtime) : CronStore :=
  match keeps with
  | some keeps => ⟨s, σ.crons.comprehend keeps⟩
  | none => ⟨s, σ.crons.overwrite s.crons⟩

/-- What a consumer does with what `next` gives it. -/
def Crons.Next.receive (received : List (Cron × Time)) :
    Turn Crons.Next (Option (Cron × Time)) → Turn ScheduleCall ScheduleResult
  | .yielded (some item) p => .yielded (.handed item.1 item.2) (.next p (received ++ [item]))
  | _ => .finished .exhausted

def scheduleCalls (base : BaseSaver) (lib : CronLibrary) (serde : Serde) :
    Coroutines CronStore ScheduleCall Reply ScheduleResult where
  fresh
    | .next .called [] | .assistantsDelete (.called _ _) => true
    | .write p => (cronCalls base lib).fresh p
    | _ => false
  resume σ
    | .next generator received, reply => (σ, Crons.Next.receive received (generator.resume σ reply))
    | .write p, reply =>
      let out := (cronCalls base lib).resume σ.runtime p reply
      (σ.store ((ScheduleCall.write p).keeps? serde σ.runtime reply) out.1, out.2.map .write .wrote)
    | .assistantsDelete p, reply =>
      let out := Assistants.Delete.resume base serde σ.runtime p reply
      (σ.store (p.keeps? serde σ.runtime reply) out.1, out.2.map .assistantsDelete .deleted)

/-- A store as it is loaded. -/
def CronStore.load (s : Runtime) : CronStore := ⟨s, .ofValues s.crons⟩

end InmemRuntime
