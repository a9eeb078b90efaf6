import BlockExplorer.Command.Run
import BlockExplorer.Proofs.Codec.ByteList
import BlockExplorer.Proofs.Codec.RoundTrip
import BlockExplorer.Proofs.Command.Outcome

/-!
# BlockExplorer — a text through two commands

What the encode command prints in decimal the decode command turns into the text
again. The byte list is read back (`ByteList.parse_render_decimal`), also with
the end of line that a run puts behind its result, and either decoder undoes the
encoding (`decodeWith_encode`), so that neither the settings of the two commands
nor the mode matter.

Main result: `decode_yields_of_encode`.
-/

namespace BlockExplorer

namespace Command

/-- The command succeeds with a result and reports nothing on the way, and a run of it prints the
result, once the log has started. -/
def Yields (command : Command) (config : Config) (result : Text) : Prop :=
  command.output config = pure (.ok result) ∧
    ∀ started milliseconds, started.result = .ok () →
      (command.outcome started milliseconds (command.output config)).exitCode = 0 ∧
      (command.outcome started milliseconds (command.output config)).stdout = result ++ ['\n']

/-- A command that works without a record yields its result. -/
theorem yields_of_output {command : Command} {config : Config} {result : Text}
    (h : command.output config = pure (.ok result)) : command.Yields config result := by
  refine ⟨h, fun started milliseconds hstarted => ?_⟩
  have hending : (command.outcome started milliseconds (command.output config)).ending =
      .finished result := by
    rw [outcome, hstarted, h]
    show Ending.ofResult (command.recorded milliseconds (pure (.ok result))).value = _
    rw [recorded_value]
    rfl
  rw [Outcome.exitCode, Outcome.stdout, hending]
  exact ⟨rfl, rfl⟩

/-- A byte list in decimal decodes to the text that its bytes encode. -/
theorem decodeOutput_render {back : Text} (hback : ∀ c ∈ back, Text.isBlank c = true)
    (config : Config) (t : Text) (mode : Option DecodeMode) :
    (decode (ByteList.render .decimal (BlockExplorer.encode t) ++ back) mode).output config =
      pure (.ok t) := by
  rw [output, decodeOutput, ByteList.parse_render_decimal hback]
  dsimp only
  rw [decodeWith_encode]
  rfl

/-- **Decoding what was printed in decimal gives the text back**, whatever the text is, in either
mode and under any settings, with or without the end of line behind the byte list. -/
theorem decode_yields_of_encode (config config' : Config) (t : Text) (format : Option ByteFormat)
    (mode : Option DecodeMode) (hformat : format.getD config.byteFormat = .decimal) :
    ∃ shown, (encode t format).Yields config shown ∧
      (decode shown mode).Yields config' t ∧ (decode (shown ++ ['\n']) mode).Yields config' t := by
  refine ⟨ByteList.render .decimal (BlockExplorer.encode t), yields_of_output ?_,
    yields_of_output ?_, yields_of_output ?_⟩
  · rw [output, encodeOutput, hformat]
  · have hback : ∀ c ∈ ([] : Text), Text.isBlank c = true := fun c hc => absurd hc List.not_mem_nil
    rw [← List.append_nil (ByteList.render _ _)]
    exact decodeOutput_render hback config' t mode
  · have hback : ∀ c ∈ ['\n'], Text.isBlank c = true := fun c hc => by
      rw [List.mem_singleton.mp hc]
      rfl
    exact decodeOutput_render hback config' t mode

/-- The format comes from the settings of the one command and the mode from those of the other; the
text has characters of one to four bytes, the replacement character among them. -/
theorem decode_yields_of_encode_settings :
    (none : Option ByteFormat).getD Config.default.byteFormat = .decimal ∧
    ∃ shown, (encode "\x00é\uFFFD😀".toList none).Yields Config.default shown ∧
      (decode shown none).Yields { Config.default with decodeMode := .strict }
        "\x00é\uFFFD😀".toList ∧
      (decode (shown ++ ['\n']) none).Yields { Config.default with decodeMode := .strict }
        "\x00é\uFFFD😀".toList :=
  ⟨rfl, decode_yields_of_encode Config.default { Config.default with decodeMode := .strict }
    "\x00é\uFFFD😀".toList none none rfl⟩

end Command

end BlockExplorer
