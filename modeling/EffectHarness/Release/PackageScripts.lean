import EffectHarness.Scripts.Pipeline

namespace EffectHarness.Release

open Scripts

/-- The scripts of `package.json`. -/
def scripts : List (String × String) :=
  [("build", "pnpm source-pins:verify && tsdown --config tsdown.config.ts"),
   ("acceptance:cross-repo", "node --experimental-strip-types tests/acceptance/cross-repo.ts"),
   ("prepack", "pnpm build"),
   ("dev", "pnpm build"),
   ("knip", "knip"),
   ("lint", "eslint"),
   ("lint:fix", "eslint --fix"),
   ("prepare", "effect-tsgo patch"),
   ("source-pin:publish:effect", "partita pin publish --name effect --prefix repos/effect " ++
     "--contract repos/effect.subtree.json --archive artifact-assets/effect/reference-archives/effect.pta " ++
     "--provenance artifact-assets/effect/reference-archives/effect.json"),
   ("source-pin:publish:tsgo", "partita pin publish --name tsgo --prefix repos/tsgo " ++
     "--contract repos/tsgo.subtree.json --archive artifact-assets/effect/reference-archives/tsgo.pta " ++
     "--provenance artifact-assets/effect/reference-archives/tsgo.json"),
   ("source-pins:verify", "node scripts/verify-source-pins.mjs"),
   ("source-pins:publish", "pnpm source-pin:publish:effect && pnpm source-pin:publish:tsgo"),
   ("test", "vitest run"),
   ("test:focused", "vitest run"),
   ("typecheck", "pnpm typecheck:source && pnpm typecheck:tests && pnpm typecheck:tooling"),
   ("typecheck:source", "tsc --noEmit -p tsconfig.build.json"),
   ("typecheck:tests", "tsc6 --noEmit -p tsconfig.tests.json"),
   ("typecheck:tooling", "tsc6 --noEmit -p tsconfig.tooling.json"),
   ("verify", "pnpm build && pnpm typecheck && pnpm test && pnpm lint --max-warnings 0 && pnpm knip")]

/-- A command with its arguments. None of the scripts quotes one. -/
abbrev Command := List String

def words (text : String) : Command := (text.toList.splitOn ' ').map String.ofList

def commands (text : String) : List Command := (words text).splitOn "&&"

/-- What `pnpm` runs: a script, to the last command of which the arguments are added, or the scripts around packing. -/
def invoked : Command → Option (List Command)
  | "pnpm" :: name :: arguments =>
    match scripts.lookup name with
    | some text => some (commands (" ".intercalate (text :: arguments)))
    | none =>
      if name = "pack" then some [["pnpm", "prepack"], ["pnpm", "prepare"], "pack" :: arguments] else none
  | _ => none

def verifySourcePinsCommand : Command := ["node", "scripts/verify-source-pins.mjs"]

def crossRepoCommand : Command := ["node", "--experimental-strip-types", "tests/acceptance/cross-repo.ts"]

end EffectHarness.Release
