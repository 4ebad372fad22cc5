import Bringup.Command.Resolve
import Bringup.Console
import Bringup.Report

/-!
The `guide` command: what the operator has to do about the disassembler setting.
-/

namespace Bringup

set_option autoImplicit false

/-- What is left to the operator, on the standard output. -/
def Guidance.print (g : Guidance) : HostM Unit := do
  HostM.printLine ""
  match g.applied with
  | some path =>
    let key ← HostM.paint .bold g.key
    HostM.printLine s!"✅ {key} set to {path.text} in {g.configFile.text}"
  | none =>
    HostM.printLine (← HostM.paint .boldYellow "⚠️  One manual step remains before fiber is usable:")
    HostM.printLine s!"   Edit {g.configFile.text}"
    HostM.printLine "   and set the absolute path of addr2line:"
    let sample ← HostM.paint .dimmed "/absolute/path/to/addr2line"
    HostM.printLine s!"       {g.key} = '{sample}'"
    match g.suggested with
    | none => pure ()
    | some path =>
      let shown ← HostM.paint .green path.text
      HostM.printLine s!"   Suggested value on this host: {shown}"

/-- The guidance that the command gives, as JSON. -/
def Guidance.outline (g : Guidance) : Except Json.Error Json := do
  let configFile ← g.configFile.json
  let suggested ← g.suggested.mapM Path.json
  return .obj [("config_file", configFile), ("key", .str g.key), ("suggested", suggested.getD .null)]

/-- The guidance for settings in a working directory. -/
def Settings.guidance (s : Settings) (workdir : Path) : HostM Guidance := do
  let suggested ← match s.disassembler.path with
    | some path => pure (some path)
    | none => (ToolSearch.findDisassembler).run' {}
  return {
    configFile := (workdir.child s.source.checkoutDir).join s.disassembler.configFile
    key := s.disassembler.key
    applied := none
    suggested }

/-- The `guide` command. -/
def Command.guideMain (o : Options) : HostM (Except Failure Unit) := do
  match ← o.workdirOn with
  | .error e => return .error e
  | .ok workdir =>
    match ← o.resolve workdir with
    | .error e => return .error e
    | .ok settings =>
      let guidance ← settings.guidance workdir
      if o.json then HostM.printJson guidance.outline
      else
        guidance.print
        if guidance.suggested.isNone then
          HostM.printLine "   addr2line was not found on this host; install binutils first."
        let line ← HostM.paint .cyan "fiber-bootstrap --resume --disassembler /path/to/addr2line"
        HostM.printLine s!"   Or let the bootstrapper write it: {line}"
        return .ok ()

end Bringup
