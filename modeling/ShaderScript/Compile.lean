import ShaderScript.Diagnostic.Bag
import ShaderScript.Script.Lowering
import ShaderScript.Script.Run
import ShaderScript.Trace.Tracer

/-!
# Compiling shaders

A shader is compiled by lowering it to a script and loading the script in the engine of its style.
Structure errors end the compilation.  Errors that lowering reports, and an engine that refuses the
script, are soft: the result then has no program but a diagnostic.
-/

namespace ShaderScript

/-- A script that an engine has loaded. -/
structure Program where
  dialect : Dialect
  script : Script

/-- Why an engine did not load a script. -/
inductive LoadFailure
  /-- The engine refused the script. -/
  | refused (message : String)
  /-- The engine itself failed. -/
  | broken (message : String)
  deriving Repr, DecidableEq

/-- A script engine.  The name given to `load` is the shader's. -/
structure Engine where
  name : String
  load : String → Script → Except LoadFailure Program

namespace Engine

def ofDialect (name : String) (d : Dialect) : Engine where
  name
  load _ script :=
    if script.loads d then .ok ⟨d, script⟩ else .error (.refused "the script does not load")

def ofStyle? (style : Style) : Option Engine :=
  if style = .javaScript then some (ofDialect "goja" .javaScript)
  else if style = .python then some (ofDialect "starlark" .python)
  else none

end Engine

/-- How to compile a shader. -/
structure CompileOptions where
  style : Style := .javaScript
  /-- What the shader is called in messages. -/
  name : String := ""
  /-- The engine to load in, if not that of the style. -/
  engine : Option Engine := none
  /-- How many diagnostics are kept; 256 unless positive. -/
  limit : Int := 0
  /-- Whether the work was called off before it began. -/
  cancelled : Bool := false

/-- Why a shader could not be compiled. -/
inductive CompileError
  | cancelled
  | noEngine (style : String)
  | lowering (name : String) (error : LoweringError)
  | engine (name message : String)
  deriving Repr, DecidableEq

def CompileError.message : CompileError → String
  | cancelled => "context canceled"
  | noEngine style => "no engine for style " ++ style
  | lowering name error => "translate " ++ name ++ ": " ++ error.message
  | engine name message => "materialize " ++ name ++ ": " ++ message

/-- What came of a shader that could be lowered. -/
structure Compilation where
  style : Style
  source : String
  /-- The loaded script, unless there was an error. -/
  program : Option Program
  /-- The first error, empty if there is a program. -/
  diagnostic : String
  /-- All findings in order. -/
  diagnostics : List Diagnostic
  /-- The span under which runs are traced. -/
  span : Nat := 0

namespace CompileOptions

/-- The name in messages. -/
def givenName (o : CompileOptions) : String := if o.name.isEmpty then "shader" else o.name

/-- The number of diagnostics that are kept. -/
def givenLimit (o : CompileOptions) : Int := if o.limit ≤ 0 then 256 else o.limit

end CompileOptions

/-- The first error among diagnostics, with its code. -/
def firstError : List Diagnostic → String
  | [] => ""
  | d :: rest =>
    if d.severity = .error then d.code.id ++ ": " ++ d.message else firstError rest

/-- The trace of what lowering reported: one point for each report. -/
def traceReports (reports : List Diagnostic) (parent : Nat) (t : Tracer) : Tracer :=
  reports.foldl
    (fun t d => t.point .node (if d.isError then "rejected" else "degraded") d.message parent) t

/-- Lowers a shader under a span of its own. -/
def tracedGenerate (style : Style) (shader : Option Shader) (parent : Nat) (t : Tracer) :
    Generation × Tracer :=
  let (span, t) := t.begin .pass "generate" parent
  let generation := generate style shader
  (generation, (traceReports generation.reports span.id t).finish span)

/-- Compiles a shader.  The trace goes under the span `parent`. -/
def compile (options : CompileOptions) (shader : Option Shader) (parent : Nat) (t : Tracer) :
    Except CompileError Compilation × Tracer :=
  if options.cancelled then (.error .cancelled, t)
  else
    match options.engine <|> Engine.ofStyle? options.style with
    | none => (.error (.noEngine options.style.name), t)
    | some engine =>
      let name := options.givenName
      let (span, t) := t.begin .pass "translate" parent
      let span := (span.withExtra "style" options.style.name).withExtra "name" name
      let (generation, t) := tracedGenerate options.style shader span.id t
      match generation.result with
      | .error e => (.error (.lowering name e), t.finish span)
      | .ok script =>
        let source := generation.source
        let found := DistinctBag.reportAll { bag := .ofLimit options.givenLimit } generation.reports
        let result (program : Option Program) (diagnostic : String) (bag : Bag) : Compilation :=
          { style := options.style, source, program, diagnostic, diagnostics := bag.sort.items,
            span := span.id }
        if found.bag.hasErrors then
          (.ok (result none (firstError found.bag.sort.items) found.bag),
            t.finish (span.withExtra "rejected" "codegen"))
        else
          let (loading, t) := t.begin .pass "materialize" span.id
          match engine.load name script with
          | .ok program =>
            (.ok (result (some program) "" found.bag), (t.finish loading).finish span)
          | .error (.broken message) =>
            (.error (.engine name message), (t.finish loading "failed").finish span)
          | .error (.refused message) =>
            let found := found.report
              (.error .compileFailed .unknown (engine.name ++ ": " ++ name ++ ": " ++ message))
            (.ok (result none message found.bag), (t.finish loading "failed").finish span)

namespace Halt

/-- The word for how a run ended early. -/
def message : Halt → String
  | interrupt (.failed f) => f.message
  | interrupt .discarded => "discarded"
  | interrupt .stopped => "stopped"
  | undefinedGlobal name => Environment.undefinedText name
  | scriptError => "script error"
  | exhausted => "script ran too long"

end Halt

/-- Runs a program, traced under the span of its compilation. -/
def Program.run (p : Program) (span : Nat) (environment : Environment) (console : Console)
    (t : Tracer) : Except Halt Unit × World × Tracer :=
  let (running, t) := t.begin .pass "execute" span
  let (result, world) := p.script.run p.dialect environment console
  let detail :=
    match result with
    | .ok _ => ""
    | .error h => h.message
  (result, world, t.finish running detail)

end ShaderScript
