import BuildHooks.Job.Codec
import BuildHooks.Scheduler
import BuildHooks.Text.Utf8

/-!
Catalogs: the configured jobs. Every job has a name of its own that is not blank, and a repository. A
catalog is a scheduler that triggers, in its order, the jobs that an event concerns.
-/

namespace BuildHooks

namespace Job

inductive Fault where
  | blankName
  | blankRepository (name : String)
  | repeated (name : String)
deriving DecidableEq, Repr

def Fault.message : Fault → String
  | .blankName => "job with a blank name"
  | .blankRepository name => s!"job '{name}' has a blank repositoryUrl"
  | .repeated name => s!"duplicate job '{name}'"

/-- What is wrong with a job after those with the names `taken`. -/
def fault? (taken : List String) (job : Job) : Option Fault :=
  if Text.isAllBlank job.name then some .blankName
  else if Text.isAllBlank job.repositoryUrl then some (.blankRepository job.name)
  else if taken.contains job.name then some (.repeated job.name)
  else none

/-- The first fault in a list of jobs after those with the names `taken`. -/
def firstFault? (taken : List String) : List Job → Option Fault
  | [] => none
  | job :: jobs =>
    match fault? taken job with
    | some fault => some fault
    | none => firstFault? (job.name :: taken) jobs

end Job

/-- A list of jobs in which nothing is wrong. -/
structure Catalog where
  jobs : List Job
  sound : Job.firstFault? [] jobs = none := by rfl

namespace Catalog

def empty : Catalog :=
  ⟨[], rfl⟩

/-- The catalog of some jobs, unless something is wrong with one of them. -/
def ofJobs (jobs : List Job) : Except Job.Fault Catalog :=
  match h : Job.firstFault? [] jobs with
  | some fault => .error fault
  | none => .ok ⟨jobs, h⟩

def size (c : Catalog) : Nat :=
  c.jobs.length

/-- Why a file gives no catalog. The first two stages fail for reasons of their own. -/
inductive LoadFault where
  | unreadable (reason : String)
  | notJobs (complaint : Json.Complaint)
  | invalid (fault : Job.Fault)

/-- What is read when the bytes of a file are no text. -/
def notText : String := "stream did not contain valid UTF-8"

/-- The catalog in a file, of which the bytes are given or the reason why they cannot be read. -/
def load (content : Except String (List UInt8)) : Except LoadFault Catalog :=
  match content with
  | .error reason => .error (.unreadable reason)
  | .ok bytes =>
    match Text.Utf8.decode? bytes with
    | none => .error (.unreadable notText)
    | some cs =>
      match Job.decodeList (String.ofList cs) with
      | .error complaint => .error (.notJobs complaint)
      | .ok jobs => (ofJobs jobs).mapError .invalid

/-- The failure to load the file called `path`. -/
def LoadFault.failure (path : String) : LoadFault → Failure
  | .unreadable reason => (Failure.of reason).within s!"reading job file {path}"
  | .notJobs complaint => (Failure.of complaint.message).within s!"parsing job file {path}"
  | .invalid fault => (Failure.of fault.message).within s!"invalid job file {path}"

def loadedRecord (path : String) (c : Catalog) : Log.Record :=
  { level := .info
    source := .jobs
    message := "loaded job catalog"
    fields := [("path", .plain path), ("jobs", .number c.size)] }

/-- The jobs that a push concerns. -/
def concerned (c : Catalog) (push : Push) : List Job :=
  c.jobs.filter fun job => job.concerns push

/-- What a call triggers. Pull requests are built whatever the jobs' triggers. -/
def outcomes (c : Catalog) : Call → List Outcome
  | .push push => (c.concerned push).map Job.outcome
  | .pullRequest r => (c.concerned r.push).map Job.buildOutcome

/-- How the kind of an outcome is spelled in records. -/
def kindWord : Outcome.Kind → String
  | .pollingScheduled => "PollingScheduled"
  | .buildScheduled => "BuildScheduled"

def outcomeRecord (call : Call) (o : Outcome) : Log.Record :=
  { level := .info
    source := .jobs
    message := o.message
    fields := match call with
      | .push push =>
        [("job", .plain o.job), ("kind", .plain (kindWord o.kind)), ("repo", .plain push.repoUri),
         ("commit", .plain push.commit), ("pushed_by", .plain push.pushedBy)]
      | .pullRequest r =>
        [("job", .plain o.job), ("pull_request_id", .number r.number),
         ("iteration_id", .number r.iteration), ("commit", .plain r.push.commit)] }

def nothingRecord (push : Push) : Log.Record :=
  { level := .debug
    source := .jobs
    message := "no job watches pushed repository"
    fields := [("repo", .plain push.repoUri)] }

def records (c : Catalog) (call : Call) : List Log.Record :=
  let none := match call, c.outcomes call with
    | .push push, [] => [nothingRecord push]
    | _, _ => []
  none ++ (c.outcomes call).map (outcomeRecord call)

def scheduler (c : Catalog) : Scheduler :=
  ⟨.atOnce, fun call => (c.records call, .ok (c.outcomes call))⟩

end Catalog

end BuildHooks
