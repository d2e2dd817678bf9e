import EffectHarness.Acceptance.PackedInputs
import EffectHarness.Schema.Printing

namespace EffectHarness.Acceptance

open Schema Schema.Text Scripts

/-- The third argument of `JSON.stringify`, `2`, as a text. -/
def indentation : Text := "  ".toList

def fileText (json : Json) : Text := stringify indentation 0 json ++ ['\n']

theorem blank_indentation : Blank indentation := by
  intro character member
  have space : character = ' ' := by simpa [indentation] using member
  rw [space]
  rfl

theorem blank_newline_end : Blank ['\n'] := by
  intro character member
  rw [List.mem_singleton.mp member]
  rfl

theorem parse_fileText {json : Json} (printable : Printable json) : parse (fileText json) = some json :=
  parse_stringify blank_indentation printable blank_newline_end

theorem packedArtifactSchema_prints : packedArtifactSchema.Prints :=
  Codec.Prints.map (Properties.Prints.strict <|
    (Properties.single_prints Codec.string_prints).both (Properties.single_prints Codec.string_prints)) _

theorem schema_prints {α : Type} {artifact : Codec α} (prints : artifact.Prints) : (Packed.schema artifact).Prints := by
  have single : ∀ key, (Properties.single key artifact).Prints := fun _ => Properties.single_prints prints
  exact Codec.Prints.map (Properties.Prints.strict <|
    (single _).both <| (single _).both <| (single _).both (single _)) _

theorem packedInputsEvidenceSchema_prints : packedInputsEvidenceSchema.Prints :=
  Codec.Prints.map (Properties.Prints.strict <|
    (Properties.single_prints (Codec.literal_prints (Printable.num 1 rfl))).both <|
      (Properties.single_prints (Codec.literal_prints (Printable.str "PREPARE"))).both <|
        (Properties.single_prints Codec.string_prints).both <|
          Properties.single_prints (schema_prints packedArtifactSchema_prints)) _

/-- The content that `preparePackedInputs` gives `packed-inputs.prepare.json`. -/
def packedInputsText (evidence : PackedInputsEvidence) : Text := fileText (packedInputsEvidenceSchema.encode evidence)

theorem parse_packedInputsText_cut (evidence : PackedInputsEvidence) (kept : Nat) :
    parse ((packedInputsText evidence).take kept) =
      if kept + 1 < (packedInputsText evidence).length then none
      else some (packedInputsEvidenceSchema.encode evidence) := by
  have length : (packedInputsText evidence).length =
      (stringify indentation 0 (packedInputsEvidenceSchema.encode evidence)).length + 1 := by
    simp [packedInputsText, fileText]
  have cut := packedInputsEvidenceSchema_prints.parse_cut evidence rfl blank_indentation
    blank_newline_end kept
  have bound : kept + 1 < (packedInputsText evidence).length ↔
      kept < (stringify indentation 0 (packedInputsEvidenceSchema.encode evidence)).length := by omega
  rw [if_congr bound rfl rfl]
  exact cut

/-- A cut `packed-inputs.prepare.json` is never read as evidence about other tarballs: it decodes to nothing, or to
    all that PREPARE wrote where it lost at most its last line break. -/
theorem evidence_text_cut (evidence : PackedInputsEvidence) (kept : Nat) :
    (parse ((packedInputsText evidence).take kept)).bind packedInputsEvidenceSchema.decode =
      if kept + 1 < (packedInputsText evidence).length then none else some evidence := by
  rw [parse_packedInputsText_cut]
  split
  · rfl
  · exact packedInputsEvidenceSchema.decode_encode evidence

/-- How the write of a text ends, with the file that it leaves. -/
inductive TextWrite
  | written
  | refused
  | cutOff (kept : Nat)

namespace TextWrite

def leaves (text : Text) (file : Option Text) : TextWrite → Option Text
  | written => some text
  | refused => file
  | cutOff kept => some (text.take kept)

/-- The write as the runner knows it. One that lost the last line break alone is not among these. -/
def outcome : TextWrite → EvidenceWrite
  | written => .written
  | refused => .refused
  | cutOff _ => .cutOff

def Cuts (text : Text) : TextWrite → Prop
  | cutOff kept => kept + 1 < text.length
  | _ => True

end TextWrite

variable {Content : Type} {site : Site} {tools : Tools Content} {root : RunRoot Content} {inputs : PackedInputs}
  {bytes : ArtifactName → Content}

/-- The run root keeps what `JSON.parse` makes of the evidence file. -/
def Holds (root : RunRoot Content) (file : Option Text) : Prop := root.packedInputs = file.map parse

theorem writePackedInputs_holds {file : Option Text} (holds : Holds root file) (write : TextWrite)
    (found : ∀ name, root.tarball site.runRoot (inputs.get name) = some (bytes name))
    (cuts : write.Cuts (packedInputsText (evidenceOf site.runRoot tools inputs bytes))) :
    Holds (finalState (writePackedInputs site tools write.outcome inputs root))
      (write.leaves (packedInputsText (evidenceOf site.runRoot tools inputs bytes)) file) := by
  have whole : parse (packedInputsText (evidenceOf site.runRoot tools inputs bytes)) =
      some (packedInputsEvidenceSchema.encode (evidenceOf site.runRoot tools inputs bytes)) :=
    parse_fileText (packedInputsEvidenceSchema_prints _)
  rw [Holds, writePackedInputs_eq _ found]
  cases write with
  | written => exact congrArg some whole.symm
  | refused => exact holds
  | cutOff kept =>
    have short : kept + 1 < (packedInputsText (evidenceOf site.runRoot tools inputs bytes)).length := cuts
    have nothing := parse_packedInputsText_cut (evidenceOf site.runRoot tools inputs bytes) kept
    rw [if_pos short] at nothing
    exact congrArg some nothing.symm

end EffectHarness.Acceptance
