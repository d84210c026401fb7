import BuildLog.Json.Value

/-!
# About the program

What the program tells about itself to others that look for tools.
-/

namespace BuildLog

/-- The name, the version and the abilities of the program. -/
def about : Json :=
  let texts (values : List String) : Json := .array (values.map fun value => .string value.toList)
  let text (value : String) : Json := .string value.toList
  .object
    [("name".toList, text "compiler_cmdline"),
      ("version".toList, text "0.1.0"),
      ("description".toList,
        text "Compiler detection and argument parsing for compile_commands.json build logs"),
      ("license".toList, text "GPL-3.0-or-later"),
      ("supported".toList, .bool true),
      ("platform".toList, texts ["windows", "linux", "macos"]),
      ("functions".toList, texts ["detect_tool", "parse_command", "process_compile_commands"]),
      ("requirements".toList, texts ["loguru", "pydantic", "rich"]),
      ("capabilities".toList,
        texts ["compiler_detection", "versioned_compiler_detection", "ntfs_short_path_detection",
          "include_path_extraction", "preprocessor_definitions", "builtin_detection_arguments"]),
      ("classes".toList,
        .object
          [("ToolDetectionEngine".toList,
              text "Tool detection with a last-detector cache and argument parsing"),
            ("ToolSignature".toList,
              text "Recognizes one compiler by the basename of its command"),
            ("ToolArgumentParser".toList,
              text "Chain of argument parsers for one kind of compiler"),
            ("CompileCommandsProcessor".toList,
              text "Processing of whole compile_commands.json files")])]

end BuildLog
