import EnvLayers.Text.Lines

/-
Module: EnvLayers.Graph.Template
Purpose: The texts that a new graph file starts with: the consumer, a package for each of its
  requirements, and, unless the shortest form is wanted, comments that show what else can be
  declared.
Main exports: Template, Template.ofName, Template.text
-/

namespace EnvLayers

/-- How much a new graph file explains. -/
inductive Template where
  | minimal
  | standard
deriving Repr, DecidableEq, Inhabited

namespace Template

/-- The template of a name. Every name that is not known stands for the standard one. -/
def ofName (name : String) : Template := if name = "minimal" then .minimal else .standard

/-- The line that lists the requirements of the consumer. -/
def requirementsLine (requires : List String) : String :=
  "    requires: [" ++ ", ".intercalate requires ++ "]"

/-- The lines that declare the consumer. -/
def consumerLines (root : String) (requires : List String) : List String :=
  ["  - name: " ++ root, requirementsLine requires]

/-- The lines that declare the required packages. -/
def requiredLines (requires : List String) : List String := requires.map ("  - name: " ++ ·)

/-- The lines of the shortest graph file. -/
def minimalLines (root : String) (requires : List String) : List String :=
  ["api: depenv/v0",
   "root: " ++ root,
   "",
   "nodes:"]
    ++ consumerLines root requires ++ requiredLines requires

/-- The lines of a graph file with comments on what else can be declared. -/
def standardLines (root : String) (requires : List String) : List String :=
  ["# depenv dependency graph",
   "",
   "api: depenv/v0",
   "",
   "# Node resolved when no consumer is given on the command line",
   "root: " ++ root,
   "",
   "# Operating system of the host and build contexts",
   "# settings:",
   "#   os: Linux",
   "# settings_build:",
   "#   os: Linux",
   "",
   "nodes:"]
    ++ consumerLines root requires
    ++ ["    # build_requires: [cmake]",
        "    # test_requires: [gtest]"]
    ++ requiredLines requires
    ++ ["",
        "# A node gives a buildenv to packages that build with it and",
        "# needs its runenv at runtime:",
        "#   - name: cmake/3.20",
        "#     id: cmake",
        "#     package_folder: /opt/cmake",
        "#     buildenv:",
        "#       - define: CMAKE_GENERATOR",
        "#         value: Ninja",
        "#     runenv:",
        "#       - prepend: PATH",
        "#         value: /opt/cmake/share/tools",
        "#         path: true"]

/-- The text of a new graph file with a consumer and its requirements. -/
def text (template : Template) (root : String) (requires : List String) : String :=
  Text.Lines.render "\n"
    (match template with
     | .minimal => minimalLines root requires
     | .standard => standardLines root requires)

end Template

end EnvLayers
