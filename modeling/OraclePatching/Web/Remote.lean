import OraclePatching.Lib.ShellWords

/-!
# `Web.Remote` — the commands `remote.py` and `planctl.py` send to a node

A command goes to the node as one text: ssh hands it to the login shell of the node, which splits it again. A script
travels as an argument of `bash -c`, and the launcher of an executor puts a script of its own into such a script. The
values of all these texts come from plans, host entries and browser forms.
-/

namespace OraclePatching.Remote

open ShellWords

/-! ## Transports -/

/-- `" ".join(shlex.quote(a) for a in argv)`. -/
def joined (argv : List String) : String := String.ofList (joinQuoted (argv.map String.toList))

/-- `shlex.quote(a)`. -/
def shlexQuote (a : String) : String := String.ofList (quote a.toList)

/-- `["sudo", "-n", *argv]`. -/
def withSudo (asRoot : Bool) (argv : List String) : List String := if asRoot then "sudo" :: "-n" :: argv else argv

/-- `_ssh_argv`. -/
def sshArgv (sshAlias remoteCommand : String) (timeout : Nat) : List String :=
  ["ssh", "-o", "BatchMode=yes", "-o", "ConnectTimeout=" ++ toString (min timeout 20), "-o", "ServerAliveInterval=15",
    "-o", "ServerAliveCountMax=8", "-o", "TCPKeepAlive=yes", sshAlias, remoteCommand]

/-- The local process of `run_remote_raw`, which `run_remote`, `run_remote_checked` and `run_remote_json` use, and of
    each end of `pipe_remote`. -/
def runRemoteRaw (sshAlias : String) (argv : List String) (timeout : Nat) (asRoot : Bool) : List String :=
  sshArgv sshAlias (joined (withSudo asRoot argv)) timeout

/-- The local process of `run_remote_shell`. -/
def runRemoteShell (sshAlias script : String) (timeout : Nat) (asRoot : Bool) : List String :=
  let inner := "bash -c " ++ shlexQuote script
  sshArgv sshAlias (if asRoot then "sudo -n " ++ inner else inner) timeout

/-- The local process of `pull_file`; `maxBytes` is at least 1. -/
def pullFile (sshAlias remotePath : String) (timeout : Nat) (asRoot : Bool) (maxBytes : Option Nat) : List String :=
  let reader :=
    match maxBytes with
    | none => ["cat", "--"]
    | some n => ["head", "-c", toString (n + 1), "--"]
  sshArgv sshAlias (joined ((if asRoot then ["sudo", "-n"] else []) ++ reader ++ [remotePath])) timeout

/-- `remote_path.rsplit("/", 1)[0] or "/"`. -/
def remoteDir (remotePath : String) : String :=
  if remotePath.toList.contains '/' then
    let dir := ((remotePath.toList.reverse.dropWhile (· != '/')).drop 1).reverse
    if dir = [] then "/" else String.ofList dir
  else if remotePath = "" then "/" else remotePath

/-- `f"mkdir -p {shlex.quote(remote_dir)} && cat > {shlex.quote(remote_path)}"`. -/
def pushScript (remotePath : String) : List Piece :=
  [.text "mkdir -p ".toList, .value (remoteDir remotePath).toList, .text " && cat > ".toList, .value remotePath.toList]

/-- The local process of `push_file`. -/
def pushFile (sshAlias remotePath : String) (timeout : Nat) (asRoot : Bool) : List String :=
  let inner := String.ofList (render (pushScript remotePath))
  sshArgv sshAlias (if asRoot then "sudo -n bash -c " ++ shlexQuote inner else inner) timeout

/-! ## The launcher of an executor -/

/-- `wrapper`: the script that runs the executor on the node. -/
def wrapper (remoteArgv : List String) : String :=
  "echo $$ >pid; " ++ joined remoteArgv ++ " >stdout 2>stderr </dev/null; echo $? >rc.tmp && mv rc.tmp rc"

/-- `launch`: the script that starts the wrapper in its run directory and waits for its PID. -/
def launch (runDir : String) (remoteArgv : List String) : List Piece :=
  [.text "mkdir -p ".toList, .value runDir.toList, .text " && cd ".toList, .value runDir.toList,
    .text " && if command -v setsid >/dev/null 2>&1; ".toList, .text "then SETSID=setsid; else SETSID=; fi; ".toList,
    .text "nohup $SETSID bash -c ".toList, .value (wrapper remoteArgv).toList,
    .text " >/dev/null 2>&1 </dev/null & ".toList, .text "for _ in 1 2 3 4 5 6 7 8 9 10; do [ -s ".toList,
    .value runDir.toList, .text "/pid ] && break; ".toList, .text "sleep 1; done; cat ".toList, .value runDir.toList,
    .text "/pid".toList]

/-- The local process by which `_run_detached_remote` launches an executor. -/
def launchArgv (sshAlias runDir : String) (remoteArgv : List String) (timeout : Nat) (asRoot : Bool) : List String :=
  runRemoteShell sshAlias (String.ofList (render (launch runDir remoteArgv))) timeout asRoot

/-! ## The other end -/

/-- The command ssh sends: its last argument. -/
def sentCommand (local' : List String) : String := local'.getLastD ""

/-- The argument vector the login shell of the node runs, when the command is one command without expansions,
    redirections or operators. -/
def received (local' : List String) : Option (List String) :=
  ((lex (sentCommand local').toList).bind simpleCommand).map fun words => words.map String.ofList

end OraclePatching.Remote
