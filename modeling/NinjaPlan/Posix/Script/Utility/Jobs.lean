import NinjaPlan.Posix.Script.Utility.Basic

/-! # Jobs

A job is a command that a shell does not wait for.  A word that begins with a percent sign stands
for one.  The shell does not control its jobs: they can be shown and waited for, but neither
stopped nor brought to the front. -/

namespace NinjaPlan.Script.Utility

def jobOf (word : Text) : Act Job := do
  let jobs := (← get).jobs
  let orFail (job? : Option Job) (message : Text) : Act Job :=
    match job? with
    | some job => return job
    | none => Act.fail message
  match word with
  | ['%'] | ['%', '%'] | ['%', '+'] => orFail jobs.getLast? "No current job"
  | ['%', '-'] => orFail jobs.dropLast.getLast? "No previous job"
  | '%' :: digits =>
    let index := (Number.natural? digits).getD 0
    orFail (if 0 < index then jobs[index - 1]? else none) ("No such job: " ++ word)
  | _ => Act.fail ("No such job: " ++ word)

/-- A job as it is listed, with a number and the sign of the current job or the one before. -/
def showJob (index : Nat) (sign : Char) (job : Job) : Text :=
  let state : Text := match job.ending with
    | none => "Running"
    | some (.status 0) => "Done"
    | some (.status n) => "Done(" ++ Text.ofNat n ++ ")"
    | some (.signal n) => Signal.description n
  let shown := '[' :: Text.ofNat index ++ "] " ++ sign :: ' ' :: state
  shown ++ List.replicate (max 1 (33 - shown.length)) ' ' ++ ['\n']

/-- Lists some jobs, or all of them, the last first.  Those that have ended are forgotten. -/
def jobs : Utility := fun arguments => do
  let o ← Options.read "lp" arguments
  let all := (← get).jobs
  let numbers ← o.rest.mapM fun word => do return (← jobOf word).number
  let isListed (job : Job) : Bool := numbers.isEmpty || numbers.contains job.number
  let signs := ['+', '-'] ++ List.replicate all.length ' '
  let listed := (all.zipIdx.reverse.zip signs).filter fun ((job, _), _) => isListed job
  modify fun s => { s with jobs := s.jobs.filter fun j => j.ending.isNone || !isListed j }
  Act.print (listed.flatMap fun ((job, index), sign) =>
    if o.has 'p' then Text.ofNat job.number ++ ['\n'] else showJob (index + 1) sign job)

/-- Fails to control a job. -/
def control : Utility := fun arguments => do
  match (← Options.read [] arguments).rest with
  | [] =>
    if (← get).jobs.isEmpty then Act.fail "No current job"
    else Act.fail "job (null) not created under job control"
  | word :: _ =>
    let _ ← jobOf word
    Act.fail ("job " ++ word ++ " not created under job control")

end NinjaPlan.Script.Utility
