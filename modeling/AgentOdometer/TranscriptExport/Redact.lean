import AgentOdometer.Lib.Replacing

/-!
# Escaping and redaction of shared text

`escapeTranscriptHtml` and `redactTranscriptText` of `transcriptExport.ts:20–47`. A string of the
source is a list of UTF-16 code units. Where a regular expression matches is left to the platform.
-/

namespace AgentOdometer.TranscriptExport

open Replacing

/-- A string of JavaScript: its UTF-16 code units. -/
abbrev JsString :=
  List UInt16

/-- The code units of a character. -/
def utf16 (c : Char) : JsString :=
  if c.toNat < 0x10000 then [c.toNat.toUInt16]
  else [(0xD800 + (c.toNat - 0x10000) / 0x400).toUInt16,
    (0xDC00 + (c.toNat - 0x10000) % 0x400).toUInt16]

/-- The code units of a literal. -/
def js (text : String) : JsString :=
  text.toList.flatMap utf16

/-- The bytes of a code unit which is no half of a pair. -/
def unitBytes (c : UInt16) : Nat :=
  if c < 0x80 then 1 else if c < 0x800 then 2 else 3

/-- The length of what `TextEncoder` gives, in which an unpaired surrogate is replaced. -/
def encodedLength : JsString → Nat
  | [] => 0
  | [c] => unitBytes c
  | c :: d :: text =>
    if 0xD800 ≤ c ∧ c < 0xDC00 ∧ 0xDC00 ≤ d ∧ d < 0xE000 then 4 + encodedLength text
    else unitBytes c + encodedLength (d :: text)

/-- Follows `transcriptExport.ts:20`. -/
def escapeTranscriptHtml (value : JsString) : JsString :=
  value.flatMap fun c ↦
    if c = 38 then js "&amp;"
    else if c = 60 then js "&lt;"
    else if c = 62 then js "&gt;"
    else if c = 34 then js "&quot;"
    else if c = 39 then js "&#39;"
    else [c]

/-- What stands in the place of a phrase, `transcriptExport.ts:44`. -/
def phraseLabel : JsString :=
  js "[review phrase redacted]"

/-- A text with the number of its redactions, `transcriptExport.ts:23`. -/
structure Redacted where
  text : JsString
  count : Nat

/-- One phrase, `transcriptExport.ts:41–44`. -/
def redactPhrase (redacted : Redacted) (phrase : JsString) : Redacted :=
  if phrase = [] then redacted
  else
    let parts := split id phrase redacted.text
    { text := phraseLabel.intercalate parts
      count := redacted.count + (parts.length - 1) }

/-- A regular expression of the source. -/
structure RegExp where
  source : String
  flags : String
deriving DecidableEq

/-- `replace`, `transcriptExport.ts:25–27`: a label for each match. The platform gives the stretches
of a text between the matches. -/
def redactPattern (unmatched : RegExp → JsString → List JsString) (redacted : Redacted)
    (rule : RegExp × String) : Redacted :=
  let parts := unmatched rule.1 redacted.text
  { text := (js ("[" ++ rule.2 ++ " redacted]")).intercalate parts
    count := redacted.count + (parts.length - 1) }

/-- The patterns and their labels, `transcriptExport.ts:29–39`. -/
def patternRules : List (RegExp × String) :=
  [(⟨"-----BEGIN [^-\\r\\n]*PRIVATE KEY-----[\\s\\S]*?" ++
        "(?:-----END [^-\\r\\n]*PRIVATE KEY-----|$)", "g"⟩,
      "private key"),
    (⟨"\\b(?:sk-(?:proj-)?[A-Za-z0-9_-]\x7b8,\x7d|" ++
        "(?:gh[pousr]_|github_pat_)[A-Za-z0-9_]\x7b8,\x7d|AKIA[A-Z0-9]\x7b16\x7d)\\b", "g"⟩,
      "credential"),
    (⟨"\\bBearer\\s+[^\\s\"'<>,;]+", "gi"⟩, "authorization"),
    (⟨"[\"']?(?:api[-_]?key|password|passwd|secret|client_secret|access_token|" ++
        "refresh_token|token)[\"']?\\s*[:=]\\s*" ++
        "(?:\"(?:\\\\.|[^\"\\\\])*\"|'(?:\\\\.|[^'\\\\])*'|[^\\s,;\x7d]+)", "gi"⟩,
      "credential field"),
    (⟨"(?:https?|file):\\/\\/[^\\s<>\"']+", "gi"⟩, "URL"),
    (⟨"(?:[A-Za-z]:[\\\\/]|\\\\\\\\)[^\\r\\n<>\"'|]+", "g"⟩, "local path"),
    (⟨"(?:^|(?<=[\\s(\"'=]))\\/(?!\\/)[^\\s<>\"',;)]+", "gm"⟩, "local path"),
    (⟨"data:[^\\s\"'<>]+", "gi"⟩, "attachment"),
    (⟨"[\"'](?:data|base64|b64_json)[\"']\\s*:\\s*\"(?:\\\\.|[^\"\\\\])*\"", "gi"⟩,
      "attachment field"),
    (⟨"[A-Za-z0-9+/_=-]\x7b160,\x7d", "g"⟩, "encoded content")]

/-- Follows `transcriptExport.ts:23–39`. -/
def redactPatterns (unmatched : RegExp → JsString → List JsString) (text : JsString) : Redacted :=
  patternRules.foldl (redactPattern unmatched) ⟨text, 0⟩

/-- Follows `transcriptExport.ts:23–47`. -/
def redactTranscriptText (unmatched : RegExp → JsString → List JsString) (text : JsString)
    (phrases : List JsString) : Redacted :=
  phrases.foldl redactPhrase (redactPatterns unmatched text)

variable {unmatched : RegExp → JsString → List JsString} {text phrase : JsString}
  {phrases : List JsString}

/-! ### Escaped text -/

/-- A text which has no markup in it: no bracket and no quote. -/
def Plain (text : JsString) : Prop :=
  ∀ c ∈ text, c ≠ 60 ∧ c ≠ 62 ∧ c ≠ 34 ∧ c ≠ 39

instance (text : JsString) : Decidable (Plain text) :=
  decidable_of_iff (text.all (fun c ↦ c != 60 && c != 62 && c != 34 && c != 39) = true)
    (by simp [Plain, and_assoc])

theorem Plain.append {other : JsString} (h : Plain text) (h' : Plain other) :
    Plain (text ++ other) := by
  intro c hc
  exact (List.mem_append.mp hc).elim (h c) (h' c)

/-- Escaped text is plain. -/
theorem plain_escapeTranscriptHtml (value : JsString) : Plain (escapeTranscriptHtml value) := by
  have hamp : Plain (js "&amp;") := by decide
  have hlt : Plain (js "&lt;") := by decide
  have hgt : Plain (js "&gt;") := by decide
  have hquot : Plain (js "&quot;") := by decide
  have hapos : Plain (js "&#39;") := by decide
  intro c hc
  obtain ⟨d, -, hd⟩ := List.mem_flatMap.mp hc
  split at hd
  · exact hamp c hd
  split at hd
  · exact hlt c hd
  split at hd
  · exact hgt c hd
  split at hd
  · exact hquot c hd
  split at hd
  · exact hapos c hd
  · obtain rfl := List.mem_singleton.mp hd
    exact ⟨‹_›, ‹_›, ‹_›, ‹_›⟩

/-! ### What the phrases leave -/

theorem text_foldl_redactPhrase (redacted : Redacted) :
    (phrases.foldl redactPhrase redacted).text =
      replaceAll id phraseLabel phrases redacted.text := by
  induction phrases generalizing redacted with
  | nil => rfl
  | cons phrase phrases ih =>
    rw [List.foldl_cons, ih, redactPhrase]
    by_cases hphrase : phrase = []
    · rw [if_pos hphrase, replaceAll, replaceAll, List.foldl_cons, if_pos hphrase]
    · rw [if_neg hphrase, replaceAll, replaceAll, List.foldl_cons, if_neg hphrase]
      rfl

/-- The redaction of the phrases, each unit with whether it was inserted by it. -/
def markedText (unmatched : RegExp → JsString → List JsString) (text : JsString)
    (phrases : List JsString) : List (UInt16 × Bool) :=
  replaceAll Prod.fst (phraseLabel.map (·, true)) phrases
    ((redactPatterns unmatched text).text.map (·, false))

theorem map_fst_map_mark (mark : Bool) (units : JsString) :
    (units.map fun c ↦ (c, mark)).map Prod.fst = units := by
  rw [List.map_map]
  exact List.map_id units

/-- The marks are put on the text which is returned. -/
theorem map_fst_markedText :
    (markedText unmatched text phrases).map Prod.fst =
      (redactTranscriptText unmatched text phrases).text := by
  have hmap := replaceAll_map id Prod.fst (phraseLabel.map (·, true)) phrases
    ((redactPatterns unmatched text).text.map (·, false))
  rw [map_fst_map_mark, map_fst_map_mark] at hmap
  rw [redactTranscriptText, text_foldl_redactPhrase]
  exact hmap.symm

/-- The units without a mark are some of the pattern-redacted text, in its order. -/
theorem kept_markedText_sublist :
    (((markedText unmatched text phrases).filter (!·.2)).map Prod.fst).Sublist
      (redactPatterns unmatched text).text := by
  have hinserted : ∀ x ∈ phraseLabel.map fun c ↦ (c, true), x.2 = true := by
    intro x hx
    obtain ⟨c, -, rfl⟩ := List.mem_map.mp hx
    rfl
  have hkept : ((markedText unmatched text phrases).filter (!·.2)).Sublist
      ((redactPatterns unmatched text).text.map (·, false)) :=
    kept_replaceAll_sublist hinserted phrases _
  have hfst := hkept.map Prod.fst
  rwa [map_fst_map_mark] at hfst

/-- What is left of a phrase has a unit of an inserted label. -/
theorem covered_markedText (hmem : phrase ∈ phrases) (hphrase : phrase ≠ []) :
    Covered Prod.fst Prod.snd phrase (markedText unmatched text phrases) := by
  refine covered_replaceAll ?_ ?_ hmem hphrase
  · decide
  · intro x hx
    obtain ⟨c, -, rfl⟩ := List.mem_map.mp hx
    rfl

end AgentOdometer.TranscriptExport
