import Chip8.Headless

/-!
# The command

Runs a program from a file without a window, and prints what is reported.
-/

open Chip8

/-- What the system says about an error. -/
def saidOf : IO.Error → String
  | .noFileOrDirectory _ _ said | .interrupted _ _ said => said
  | .alreadyExists _ _ said | .invalidArgument _ _ said | .permissionDenied _ _ said => said
  | .resourceExhausted _ _ said | .inappropriateType _ _ said | .noSuchThing _ _ said => said
  | .otherError _ said | .resourceBusy _ said | .resourceVanished _ said => said
  | .unsupportedOperation _ said | .hardwareFault _ said | .unsatisfiedConstraints _ said => said
  | .illegalOperation _ said | .protocolError _ said | .timeExpired _ said => said
  | .unexpectedEof => "end of file"
  | .userError said => said

/-- The image in a file of the system. -/
def readImage (path : Path) : IO (Except Rom.LoadError (List Byte)) := do
  if path.toString.toList.contains (Char.ofNat 0) then return .error .nulInPath
  try
    let bytes ← IO.FS.readBinFile path.toString
    return .ok (bytes.toList.map fun b => BitVec.ofNat 8 b.toNat)
  catch e => return .error (.unreadable path (.ofMessage (saidOf e)))

/-- A source of random bytes that is different every time. -/
def freshSource : IO RandomSource := do
  let bytes ← IO.getRandomBytes 8
  return .ofSeed (bytes.toList.foldl (fun n b => n * 256 + b.toNat) 0 : Nat)

def main (args : List String) : IO UInt32 := do
  let result ← match (Headless.Request.ofArguments args).run with
    | .error cause => pure (.error cause)
    | .ok (.error stop) => pure (.ok (Headless.stopped stop))
    | .ok (.ok request) => do
      let image ← readImage request.rom
      pure (Headless.perform request image {} (← freshSource))
  match result with
  | .ok outcome =>
    outcome.diagnostics.forM fun line => IO.eprintln line
    IO.print outcome.output
    return outcome.status.toUInt32
  | .error cause =>
    IO.eprintln (Headless.errorLine cause)
    return 1
