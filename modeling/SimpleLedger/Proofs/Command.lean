import SimpleLedger.Command
import SimpleLedger.Proofs.Endpoint
import SimpleLedger.Proofs.Json.Line
import SimpleLedger.Proofs.Json.Reading
import SimpleLedger.Proofs.Message.Respelled
import SimpleLedger.Proofs.Verdict

namespace SimpleLedger

namespace Command

variable {script : Bytes} {text : List Char}

theorem shape_of_spelling (h : Hex.Spelling script text) :
    OptionSpec.shape (String.ofList text) = .other := by
  have plain : '-' ∉ text := fun mem => (h.isDigit '-' mem).plain.2.2 (by decide)
  unfold OptionSpec.shape
  rw [String.toList_ofList]
  split
  next => simp at plain
  next => simp at plain
  next => simp at plain
  next => rfl

theorem ofArguments?_decode {arguments : List String} {given : Given}
    (read : OptionSpec.read Task.decodeOptions none ⟨[], []⟩ arguments = some (.given given)) :
    Task.ofArguments? ("decode" :: arguments) = Task.decode? given := by
  have command : OptionSpec.shape "decode" = .other := rfl
  rw [Task.ofArguments?, command]
  dsimp only
  rw [if_pos rfl, Task.ofForm?, read]
  rfl

theorem read_last {specs : List OptionSpec} {given : Given} {argument : String}
    (other : OptionSpec.shape argument = .other) :
    OptionSpec.read specs none given [argument] =
      some (.given { given with others := given.others ++ [argument] }) := by
  rw [OptionSpec.read, other]
  rfl

theorem read_pretty {argument : String} (other : OptionSpec.shape argument = .other) :
    OptionSpec.read Task.decodeOptions none ⟨[], []⟩ ["--pretty", argument] =
      some (.given ⟨[("pretty", "")], [argument]⟩) := by
  have option : OptionSpec.shape "--pretty" = .long "pretty" none := rfl
  have last : OptionSpec.read Task.decodeOptions none ⟨[("pretty", "")], []⟩ [argument] =
      some (.given ⟨[("pretty", "")], [argument]⟩) := read_last other
  rw [OptionSpec.read, option]
  exact last

/-- A command to decode writes the verdict and ends well, whatever the verdict is. -/
theorem run_decode (h : Hex.Spelling script text) (around : Surroundings) :
    run around ["decode", String.ofList text] =
        .finished (.success ((Verdict.ofScript script).toJson.compactText ++ "\n")) ∧
      run around ["decode", "--pretty", String.ofList text] =
        .finished (.success ((Verdict.ofScript script).toJson.prettyText ++ "\n")) := by
  have other := shape_of_spelling h
  have asked := Verdict.ofHex_of_spelling h
  have line : Task.ofArguments? ["decode", String.ofList text] =
      some (.decode (String.ofList text) false) := ofArguments?_decode (read_last other)
  have lines : Task.ofArguments? ["decode", "--pretty", String.ofList text] =
      some (.decode (String.ofList text) true) := ofArguments?_decode (read_pretty other)
  rw [run, run, line, lines]
  dsimp only [decode]
  rw [asked]
  exact ⟨rfl, rfl⟩

end Command

/-- A request for a script and both commands that decode it tell the JSON of its verdict, in however
many lines and in digits of whichever case. -/
theorem Command.decode_tells_verdict {script : Bytes} {hex : String}
    (h : Hex.Spelling script hex.toList) (around : Surroundings) :
    (∃ verdict, (Endpoint.respond "GET" ("/" ++ hex)).body = some verdict ∧
      Json.ofText? verdict.toJson.compactText =
        some (Verdict.ofResult (Message.ofScript script)).toJson) ∧
    (∃ line, run around ["decode", hex] = .finished ⟨0, line ++ "\n", none, none, []⟩ ∧
      '\n' ∉ line.toList ∧
      Json.ofText? (line ++ "\n") = some (Verdict.ofResult (Message.ofScript script)).toJson) ∧
    ∃ output, run around ["decode", "--pretty", hex] = .finished ⟨0, output, none, none, []⟩ ∧
      Json.ofText? output = some (Verdict.ofResult (Message.ofScript script)).toJson := by
  have numbers := Verdict.exact_toJson (Verdict.ofScript script)
  have spelled : hex = String.ofList hex.toList := String.ofList_toList.symm
  have answered := Endpoint.respond_of_spelling h
  have written := run_decode h around
  rw [← spelled] at answered written
  have ended (text : List Char) : String.ofList text ++ "\n" = String.ofList (text ++ ['\n']) :=
    String.ofList_append.symm
  have gap : Json.Token.IsGap ['\n'] := List.forall_mem_singleton.mpr rfl
  refine ⟨⟨_, answered, numbers.ofText?_compactText⟩, ⟨_, written.1, ?_, ?_⟩, ⟨_, written.2, ?_⟩⟩
  · intro newLine
    rw [Json.compactText, String.toList_ofList] at newLine
    exact absurd (numbers.uncontrolled_compact '\n' newLine) (by decide)
  · rw [Json.compactText, ended]
    exact numbers.ofText?_of_spells numbers.spells_compact gap
  · rw [Json.prettyText, ended]
    exact numbers.ofText?_of_spells (numbers.spells_indented 0) gap

/-- A tag of a quotation mark and a backslash is told alike on all three ways. -/
theorem Command.decode_tells_verdict_of_quoted_tag : ∃ json : Json,
    json = .obj [("success", .bool false),
      ("error", .str "Unknown transaction type: \"\"\\\""),
      ("kind", .str "UnknownTransactionType")] ∧
    (∃ verdict, (Endpoint.respond "GET" "/6A04534c5000010102225C").body = some verdict ∧
      Json.ofText? verdict.toJson.compactText = some json) ∧
    (∃ line, run ⟨[], none, fun _ => .unreachable, fun _ => none⟩
        ["decode", "6A04534c5000010102225C"] = .finished ⟨0, line ++ "\n", none, none, []⟩ ∧
      '\n' ∉ line.toList ∧ Json.ofText? (line ++ "\n") = some json) ∧
    ∃ output, run ⟨[], none, fun _ => .unreachable, fun _ => none⟩
        ["decode", "--pretty", "6A04534c5000010102225C"] =
          .finished ⟨0, output, none, none, []⟩ ∧
      Json.ofText? output = some json := by
  have spelled : Hex.Spelling [0x6a, 0x04, 0x53, 0x4c, 0x50, 0x00, 0x01, 0x01, 0x02, 0x22, 0x5c]
      "6A04534c5000010102225C".toList := by
    have characters : "6A04534c5000010102225C".toList = ['6', 'A', '0', '4', '5', '3', '4', 'c',
      '5', '0', '0', '0', '0', '1', '0', '1', '0', '2', '2', '2', '5', 'C'] := by decide
    rw [characters]
    exact .cons (.inl rfl) (.inr rfl) <| .cons (.inl rfl) (.inl rfl) <|
      .cons (.inl rfl) (.inl rfl) <| .cons (.inl rfl) (.inl rfl) <|
      .cons (.inl rfl) (.inl rfl) <| .cons (.inl rfl) (.inl rfl) <|
      .cons (.inl rfl) (.inl rfl) <| .cons (.inl rfl) (.inl rfl) <|
      .cons (.inl rfl) (.inl rfl) <| .cons (.inl rfl) (.inl rfl) <|
      .cons (.inl rfl) (.inr rfl) .nil
  have direct {field : Bytes} (h : 1 ≤ field.length ∧ field.length ≤ 75) :
      Script.Spelling field (UInt8.ofNat field.length :: field) :=
    ⟨_, .direct h.1 h.2, rfl⟩
  have pushes : Script.Pushes [lokadId, [0x01], [0x22, 0x5c]]
      [0x04, 0x53, 0x4c, 0x50, 0x00, 0x01, 0x01, 0x02, 0x22, 0x5c] :=
    .cons (direct (by decide)) (.cons (direct (by decide)) (.cons (direct (by decide)) .nil))
  have refused : Message.ofScript [0x6a, 0x04, 0x53, 0x4c, 0x50, 0x00, 0x01, 0x01, 0x02, 0x22,
      0x5c] = .error (.unknownTransactionType "\"\"\\\"") :=
    (Message.ofScript_of_pushes pushes).trans (by decide)
  have json : (Verdict.ofResult (Message.ofScript [0x6a, 0x04, 0x53, 0x4c, 0x50, 0x00, 0x01, 0x01,
      0x02, 0x22, 0x5c])).toJson = .obj [("success", .bool false),
        ("error", .str "Unknown transaction type: \"\"\\\""),
        ("kind", .str "UnknownTransactionType")] := by
    have told : (DecodeError.unknownTransactionType "\"\"\\\"").message =
        "Unknown transaction type: \"\"\\\"" :=
      String.ofList_append.symm
    rw [refused, Verdict.ofResult, told]
    rfl
  exact ⟨_, json.symm ▸ rfl, decode_tells_verdict spelled _⟩

end SimpleLedger
