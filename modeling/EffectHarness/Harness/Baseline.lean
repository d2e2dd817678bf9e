namespace EffectHarness

structure SourcePin where
  publicationName : String
  outputId : String
  targetPath : String
  sourceUrl : String
  deriving DecidableEq

namespace acceptedEffectBaseline.sourcePins

def effect : SourcePin where
  publicationName := "effect"
  outputId := "effect.reference.effect"
  targetPath := "repos/effect"
  sourceUrl := "https://github.com/Effect-TS/effect-smol"

def tsgo : SourcePin where
  publicationName := "tsgo"
  outputId := "effect.reference.tsgo"
  targetPath := "repos/tsgo"
  sourceUrl := "https://github.com/Effect-TS/tsgo"

end acceptedEffectBaseline.sourcePins

def acceptedEffectBaseline.pins : List SourcePin :=
  [acceptedEffectBaseline.sourcePins.effect, acceptedEffectBaseline.sourcePins.tsgo]

end EffectHarness
