import ApiLoom.Export.Manifest
import ApiLoom.Text.Lines

/-!
# Help

The texts about the command line itself.
-/

namespace ApiLoom.Help

def versionText : String := s!"NexaFlow ResolverGen v{generatorVersion}\n"

def usageLines : List String := [
  "usage: resolvergen [-h] [--version] -m DIR [-o DIR] [-c PATH]",
  "                   [--validate-only] [--stage NAME] [--page-size N]",
  "                   [--debug-templates] [--strict] [--fail-on-warnings]",
  "                   [--clean] [-v] [-q]"]

def usage : String := Text.joinLines usageLines ++ "\n"

def description : List String := [
  "NexaFlow ResolverGen — GraphQL resolver compiler.",
  "",
  "Compiles declarative model definitions (JSON/YAML) into a GraphQL schema and " ++
    "the request/response mapping templates that resolve it against " ++
    "document, relational, HTTP and queued data sources."]

def flagLines : List String := [
  "options:",
  "  -h, --help            show this help message and exit",
  "  --version             show program's version number and exit",
  "  -m DIR, --models DIR  Directory of model definition files (JSON or YAML).",
  "  -o DIR, --output DIR  Output directory for the artifacts. Required unless",
  "                        --validate-only is set.",
  "  -c PATH, --config PATH",
  "                        Compilation config file (JSON or YAML).",
  "",
  "operation modes:",
  "  --validate-only       Only load and validate the models.",
  "",
  "configuration overrides:",
  "  --stage NAME          Deployment stage label (e.g. 'dev', 'prod').",
  "  --page-size N         Default page size for list operations.",
  "  --debug-templates     Emit debug stash instrumentation in every template.",
  "",
  "behaviour flags:",
  "  --strict              Abort on the first malformed model file instead of",
  "                        skipping it.",
  "  --fail-on-warnings    Treat validation warnings as errors.",
  "  --clean               Clean the output directory before writing.",
  "",
  "verbosity:",
  "  -v, --verbose         Increase verbosity (-v for INFO, -vv for DEBUG).",
  "  -q, --quiet           Suppress all output except errors."]

def examples : List String := [
  "Examples:",
  "  resolvergen -m models -o build",
  "  resolvergen -m models -o build --config resolvergen.yaml --stage prod",
  "  resolvergen -m models --validate-only"]

def text : String :=
  Text.joinLines (usageLines ++ "" :: description ++ "" :: flagLines ++ "" :: examples) ++ "\n"

end ApiLoom.Help
