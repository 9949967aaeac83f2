import OptionDefaults.Table.Basic

/-!
# The built-in table

The options of a compiler configuration and their defaults, in an order without forward references:
the options that others depend on (`files`, `target`, `module`, `strict`) come first.
-/

namespace OptionDefaults.Table

namespace Builtin

def strings (values : List String) : Json := .array (values.map .string)

/-- An option without a default. -/
def plain (region : Region) (name : String) : String × Descriptor := (name, ⟨name, region, none⟩)

/-- An option of the nested region with one rule. -/
def ruled (name : String) (rule : Rule) : String × Descriptor :=
  (name, ⟨name, .nested, some (.single rule)⟩)

def off (name : String) : String × Descriptor := ruled name (.literal (.bool false))

/-- An option that is on exactly when `strict` is. -/
def likeStrict (name : String) : String × Descriptor :=
  ruled name (.multiValue "strict" [(.bool true, .bool true)] (some (.bool false)))

def entries : List (String × Descriptor) :=
  [ plain .root "files",
    ("include", ⟨"include", .root,
      some (.single (.presence "files" (strings []) (some (strings ["**/*"]))))⟩),
    ("exclude", ⟨"exclude", .root,
      some (.merged [.literal (strings ["node_modules", "bower_components", "jspm_packages"])])⟩),
    plain .root "extends",
    ruled "target" (.literal (.string "es3")),
    ruled "module" (.multiValue "target"
      [(.string "es3", .string "commonjs"), (.string "es5", .string "commonjs")]
      (some (.string "es6"))),
    ruled "moduleResolution" (.multiValue "module"
      [(.string "commonjs", .string "node")] (some (.string "classic"))),
    ruled "lib" (.multiValue "target"
      [(.string "es3", strings ["dom", "es5", "scripthost"]),
        (.string "es5", strings ["dom", "es5", "scripthost"]),
        (.string "es6", strings ["dom", "es6", "dom.iterable", "scripthost"])]
      (some (strings ["dom", "esnext", "dom.iterable", "scripthost"]))),
    ruled "useDefineForClassFields" (.multiValue "target"
      [(.string "es2022", .bool true), (.string "esnext", .bool true)] (some (.bool false))),
    plain .nested "outDir",
    plain .nested "rootDir",
    plain .nested "jsx",
    off "strict",
    likeStrict "noImplicitAny",
    likeStrict "strictNullChecks",
    likeStrict "strictFunctionTypes",
    likeStrict "strictBindCallApply",
    likeStrict "strictPropertyInitialization",
    likeStrict "noImplicitThis",
    likeStrict "alwaysStrict",
    off "esModuleInterop",
    ruled "allowSyntheticDefaultImports" (.multiValue "module"
      [(.string "system", .bool true)] (some (.bool false))),
    off "allowJs",
    off "checkJs",
    off "declaration",
    off "sourceMap",
    off "removeComments",
    off "noEmit",
    off "importHelpers",
    off "downlevelIteration",
    off "isolatedModules",
    off "experimentalDecorators",
    off "resolveJsonModule",
    off "skipLibCheck",
    off "forceConsistentCasingInFileNames" ]

end Builtin

def builtin : Table := ⟨Builtin.entries, by decide⟩

end OptionDefaults.Table
