import SessionShell.Programs.Format
import SessionShell.Programs.Tool

/-! `printf`: writes its arguments by a format. -/

namespace SessionShell.Programs.Printf

def work : Work Ending := do
  let arguments := match (← get).process.arguments with
    | "--" :: rest => rest
    | arguments => arguments
  match arguments with
  | [] => Work.refuse 1 "missing operand"
  | text :: arguments =>
    let written := format .program text arguments
    Work.put written.output
    for warning in written.warnings.reverse do
      Work.complain warning
    match written.early with
    | some (.refused message) =>
      Work.complain message
      return .code 1
    | _ =>
      let failed := written.warnings.any fun warning => !warning.startsWith "warning"
      return .code (if failed then 1 else 0)

end SessionShell.Programs.Printf
