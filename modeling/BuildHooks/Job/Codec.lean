import BuildHooks.Job.Basic
import BuildHooks.Json.Record
import BuildHooks.Push.Codec

/-!
The JSON form of jobs. Branches and trigger may be left out: then every branch is watched, and the job
is polled.
-/

namespace BuildHooks.Job

def Trigger.name : Trigger → String
  | .poll => "poll"
  | .build => "build"

def triggers : List (String × Trigger) :=
  [("poll", .poll), ("build", .build)]

/-- All members are written, those that could be left out as well. -/
def members (job : Job) : Json.Members :=
  [("name", .string job.name), ("repositoryUrl", .string job.repositoryUrl),
   ("branches", .array (job.branches.map .string)), ("trigger", .string job.trigger.name)]

def toJson (job : Job) : Json :=
  .object job.members

def listToJson (jobs : List Job) : Json :=
  .array (jobs.map toJson)

/-- A job of which some members may not have been read yet. -/
structure Draft where
  name : Option String
  repositoryUrl : Option String
  branches : Option (List String)
  trigger : Option Trigger

def Draft.blank : Draft :=
  ⟨none, none, none, none⟩

def Draft.finish (d : Draft) : Except Json.Mismatch Job := do
  return { name := ← Push.required "name" d.name
           repositoryUrl := ← Push.required "repositoryUrl" d.repositoryUrl
           branches := d.branches.getD []
           trigger := d.trigger.getD .poll }

def fields : List (Json.Field Draft) :=
  [.of "name" .text Draft.name fun d v => { d with name := some v },
   .of "repositoryUrl" .text Draft.repositoryUrl fun d v => { d with repositoryUrl := some v },
   .of "branches" (.list .text) Draft.branches fun d v => { d with branches := some v },
   .of "trigger" (.choice triggers) Draft.trigger fun d v => { d with trigger := some v }]

def form : Json.Form Draft Job where
  title := "struct JobDefinition"
  fields := fields
  blank := .blank
  other := Json.passOther
  listed := true
  finish := Draft.finish

/-- The jobs that a text lists. -/
def decodeList (text : String) : Except Json.Complaint (List Job) :=
  Json.parseWith (Json.readList form.read) text

end BuildHooks.Job
