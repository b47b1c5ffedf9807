namespace Criteria.Settings.Template

def heading : List String :=
  ["# atlasq project configuration.", "#",
    "# Settings here override the global ~/.atlasq.toml. Files closer to the",
    "# working directory win.", ""]

def project : List String :=
  heading ++
  ["# Stop looking for configuration in parent directories.",
    "root = true",
    "",
    "[resolver]",
    "# Similarity a schema name needs before it is considered for a field path.",
    "candidate_threshold = 0.8",
    "# Matches at or above this similarity are preferred.",
    "strong_threshold = 0.7",
    "# Weakest similarity accepted when no strong match exists.",
    "moderate_threshold = 0.5",
    "",
    "[embedding]",
    "# Path prefixes that are never wrapped as embedded documents.",
    "flat_prefixes = [\"standaloneFinancialInfo\", \"consolidatedFinancialInfo\"]",
    "# Path prefixes that are always wrapped as embedded documents.",
    "embedded_prefixes = [\"investmentInfo\", \"linkedCompanies\"]",
    "",
    "[search]",
    "# Atlas Search index used by `atlasq compile --envelope`.",
    "index = \"default\""]

def personal : List String :=
  ["# atlasq global configuration (~/.atlasq.toml).", "#",
    "# Applies everywhere unless a project .atlasq.toml overrides it.",
    "",
    "[resolver]",
    "candidate_threshold = 0.8",
    "strong_threshold = 0.7",
    "moderate_threshold = 0.5",
    "",
    "[search]",
    "index = \"default\""]

def disabled (line : String) : String :=
  if line.isEmpty || line.toList.head? = some '#' then line else "# " ++ line

def text (lines : List String) : String :=
  String.join (lines.map (fun line => disabled line ++ "\n"))

theorem disabled_disabled (line : String) : disabled (disabled line) = disabled line := by
  simp only [disabled]
  split
  · simp_all
  · simp

end Criteria.Settings.Template
