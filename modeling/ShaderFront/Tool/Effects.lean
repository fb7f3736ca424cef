import ShaderFront.Mixin.Recipe

/-!
# Built-in effects

A small library of post-processing and material effects. Leaf mixins add one shader class, whose
generic arguments are the values of their parameters. Effects pass values on to leaves, and open
slots for shaders that are chosen by a parameter.
-/

namespace ShaderFront.Effects

def autoKey : ParamKey := ⟨"ToneMap.AutoKey", .bool⟩

def autoExposure : ParamKey := ⟨"ToneMap.AutoExposure", .bool⟩

def colorTransform : ParamKey := ⟨"ColorTransform.Shader", .mixin⟩

def skybox : ParamKey := ⟨"Skybox.Shader", .mixin⟩

def normalBackFace : ParamKey := ⟨"MaterialFrontBackBlend.UseNormalBackFace", .bool⟩

def blurCount : ParamKey := ⟨"AmbientOcclusionBlur.Count", .int⟩

def blurVertical : ParamKey := ⟨"AmbientOcclusionBlur.VerticalBlur", .bool⟩

/-- The parameters of the effects, in the order in which they are declared. -/
def keys : List ParamKey :=
  [autoKey, autoExposure, colorTransform, skybox, normalBackFace, blurCount, blurVertical]

/-- The values of parameters, as texts. -/
def displays : List ParamKey → Generation (List String)
  | [] => return []
  | key :: rest => do
    let value ← Generation.ask (.param key)
    let others ← displays rest
    return value.display :: others

/-- A class whose generic arguments are the values of parameters. -/
def shaderClass (name : String) (params : List ParamKey) : Generator where
  name := name
  params := params
  body := do
    let args ← displays params
    Generation.modify (·.addClass ⟨name, args⟩)

/-- Classes without arguments. -/
def classes (name : String) (names : List String) : Generator where
  name := name
  body := Generation.modify (·.addClasses (names.map fun n => ⟨n, []⟩))

/-- The value of a parameter as one of its kind, for passing it on. -/
def typed (key : ParamKey) : Generation ParamValue := do
  let value ← Generation.ask (.param key)
  return (value.read? key.kind).getD key.kind.default

/-- A tone map with the operator that a parameter chooses. -/
def toneMap : Generator where
  name := "ToneMapEffect"
  body := do
    let key ← typed autoKey
    let exposure ← typed autoExposure
    Generation.mixin "ToneMapShader" [key, exposure]
    Generation.ask (.openSlot .single "ToneMapOperator" .empty)
    Generation.mixinParam colorTransform
    Generation.closeSlot

/-- A skybox, with the color shader that a parameter may choose. -/
def skyboxEffect : Generator where
  name := "SkyboxEffect"
  body := do
    Generation.mixin "SkyboxShader" []
    let color ← Generation.ask (.param skybox)
    if color.isUnset then return ()
    else
      Generation.ask (.openSlot .single "skyboxColor" .empty)
      Generation.mixinValue color
      Generation.closeSlot

def wireframe : Generator where
  name := "WireFrameShadingEffect"
  body := do
    Generation.mixin "EffectBase" []
    let backFace ← typed normalBackFace
    Generation.mixin "MaterialFrontBackBlendShader" [backFace]

def isPositive : ParamValue → Bool
  | .int n => 0 < n
  | _ => false

/-- A blur; without a positive count there is nothing to expand. -/
def blur : Generator where
  name := "AmbientOcclusionBlurEffect"
  body := do
    let count ← typed blurCount
    if isPositive count then
      let vertical ← typed blurVertical
      Generation.mixin "AmbientOcclusionBlurShader" [count, vertical]
    else Generation.ask .discard

def generators : List Generator :=
  [classes "EffectBase" ["ShaderBase", "TransformationWAndVP", "ShadingBase"],
    classes "SkyboxShader" ["SkyboxShader"],
    classes "SkyboxShaderCubemap" ["SkyboxShaderCubemap"],
    classes "ToneMapReinhard" ["ToneMapReinhardOperatorShader"],
    classes "ToneMapHejl2" ["ToneMapHejl2OperatorShader"],
    classes "ToneMapAces" ["ToneMapACESOperatorShader"],
    shaderClass "ToneMapShader" [autoKey, autoExposure],
    shaderClass "MaterialFrontBackBlendShader" [normalBackFace],
    shaderClass "AmbientOcclusionBlurShader" [blurCount, blurVertical],
    toneMap, skyboxEffect, wireframe, blur]

/-- The registry of the effects. -/
def registry : Registry := ⟨generators⟩

/-- Declares the parameters of the effects. -/
def declare (t : KeyTable) : Except KeyConflict KeyTable :=
  t.declareAll (keys.map fun k => (k.name, k.kind))

end ShaderFront.Effects
