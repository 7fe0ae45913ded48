/-
The text passes of the Python package.

The package has its own catalog of compression algorithms.  Three of them carry the ids of passes of
the kernel: the white space is normalized line by line, outside of fenced code; blocks are what lies
between blank lines, and are compared without regard to case and white space; a text is truncated to
the longest prefix within the target, and further to its last blank when that is not too far back.

Main definitions:

* `Host.normalizeWhitespace`, with `Host.splitFences`, `Host.splitLines` and `Host.limitNewlines`;
* `Host.deduplicateBlocks`, with `Host.splitBlankLines`;
* `Host.boundaryTruncate`, with `Host.searchLength` and `Host.truncateTextToTokens`;
* `TextAlgorithm` — the ids that the kernel and the catalog share.
-/

import ContextLease.TextRuns
import ContextLease.TokenPatterns

set_option relaxedAutoImplicit false
set_option autoImplicit false

namespace ContextLease

/-- What the passes take from the Unicode database: `str.isalnum` and `str.casefold`. -/
structure PythonStrings extends PythonText where
  casefold : List Char → List Char

namespace Host

open TextRuns

/-! ### White space -/

/-- The source's `text.strip()`. -/
def strip (text : List Char) : List Char := TextRuns.strip isSpace text

/-- A line boundary of `str.splitlines`. -/
def isLineBoundary (c : Char) : Bool :=
  ['\n', '\r', '\x0b', '\x0c', '\x1c', '\x1d', '\x1e', '\x85', '\u2028', '\u2029'].contains c

/-- The source's `text.splitlines()`. -/
def splitLines : List Char → List (List Char)
  | [] => []
  | '\r' :: '\n' :: rest => [] :: splitLines rest
  | c :: rest =>
      if isLineBoundary c then [] :: splitLines rest
      else
        match splitLines rest with
        | [] => [[c]]
        | line :: lines => (c :: line) :: lines

/-- A match of the source's `[ \\t]`. -/
def isBlankOrTab (c : Char) : Bool := c == ' ' || c == '\t'

/-- The source's `re.sub(r"\\n{3,}", "\\n\\n", text)`, after `seen` newlines in a row. -/
def limitNewlines : ℕ → List Char → List Char
  | _, [] => []
  | seen, c :: rest =>
      if c = '\n' then
        if seen < 2 then '\n' :: limitNewlines (seen + 1) rest else limitNewlines (seen + 1) rest
      else c :: limitNewlines 0 rest

/-- The three backquotes of a fence. -/
def fence : List Char := [Char.ofNat 0x60, Char.ofNat 0x60, Char.ofNat 0x60]

/-- The text up to the next fence and with it, and what comes after. -/
def closeFence : List Char → Option (List Char × List Char)
  | [] => none
  | c :: rest =>
      if fence.isPrefixOf (c :: rest) then some (fence, (c :: rest).drop 3)
      else (closeFence rest).map fun found => (c :: found.1, found.2)

/-- The source's `re.split` at fenced blocks, which are kept as pieces of their own; a search of
`fuel` steps is over when the text has no more than `fuel` characters. -/
def splitFencesIn : ℕ → List Char → List (List Char)
  | 0, text => [text]
  | _, [] => [[]]
  | fuel + 1, c :: rest =>
      let found := if fence.isPrefixOf (c :: rest) then closeFence ((c :: rest).drop 3) else none
      match found with
      | some (block, left) => [] :: (fence ++ block) :: splitFencesIn fuel left
      | none => (splitFencesIn fuel rest).modifyHead (c :: ·)

/-- The source's segments. -/
def splitFences (text : List Char) : List (List Char) := splitFencesIn text.length text

/-- The lines of a segment with single blanks, at most one of them empty in a row. -/
def normalizeLines (segment : List Char) : List Char :=
  strip (limitNewlines 0 (['\n'].intercalate
    ((splitLines segment).map fun line => strip (collapse ' ' isBlankOrTab line))))

/-- A segment as the source appends it to `normalized`. -/
def normalizeSegment (preserveFences : Bool) (segment : List Char) : List Char :=
  if preserveFences && fence.isPrefixOf segment then strip segment else normalizeLines segment

/-- The source's `_normalize_whitespace`. -/
def normalizeWhitespace (preserveFences : Bool) (text : List Char) : List Char :=
  let segments := if preserveFences then splitFences text else [text]
  ['\n'].intercalate
    ((segments.map (normalizeSegment preserveFences)).filter fun part => !part.isEmpty)

/-! ### Blocks -/

/-- A match of `\\n\\s*\\n` lies in the text. -/
def hasBlankLine : List Char → Bool
  | [] => false
  | c :: rest => (c == '\n' && (rest.takeWhile isSpace).contains '\n') || hasBlankLine rest

/-- The source's `re.split(r"\\n\\s*\\n", text)`: after a newline the white space that follows is
matched up to its last newline, if it has one. -/
def splitBlankLinesIn : ℕ → List Char → List (List Char)
  | 0, text => [text]
  | _, [] => [[]]
  | fuel + 1, c :: rest =>
      if c == '\n' && (rest.takeWhile isSpace).contains '\n' then
        [] :: splitBlankLinesIn fuel
          ((rest.takeWhile isSpace).rtakeWhile (· != '\n') ++ rest.dropWhile isSpace)
      else (splitBlankLinesIn fuel rest).modifyHead (c :: ·)

/-- The blocks between blank lines. -/
def splitBlankLines (text : List Char) : List (List Char) := splitBlankLinesIn text.length text

/-- The source's `blocks`: stripped, and none of them blank. -/
def blocks (text : List Char) : List (List Char) :=
  ((splitBlankLines text).map strip).filter fun block => !block.isEmpty

/-- The key that the source compares blocks by. -/
def blockKey (py : PythonStrings) (block : List Char) : List Char :=
  py.casefold (collapse ' ' isSpace block)

/-- The source's `_deduplicate_blocks`. -/
def deduplicateBlocks (py : PythonStrings) (text : List Char) : List Char :=
  ['\n', '\n'].intercalate (keepFirst (blockKey py) [] (blocks text))

/-! ### Truncation -/

/-- Which end of a text the source's `keep` names. -/
inductive Keep
  | head
  | tail
deriving DecidableEq, Repr

/-- The source's `text[:length]`, or `text[-length:]`, which is the whole text for no length. -/
def Keep.slice (keep : Keep) (text : List Char) (length : ℕ) : List Char :=
  match keep with
  | .head => text.take length
  | .tail => if length = 0 then text else text.drop (text.length - length)

/-- The source's binary search for the greatest length that passes a test, between two bounds that
are at most `fuel` apart. -/
def searchLength (fits : ℕ → Bool) : ℕ → ℕ → ℕ → ℕ
  | 0, low, _ => low
  | fuel + 1, low, high =>
      if low < high then
        let mid := (low + high + 1) / 2
        if fits mid then searchLength fits fuel mid high else searchLength fits fuel low (mid - 1)
      else low

/-- The source's boundary: the place of the last blank or newline. -/
def lastBoundary (candidate : List Char) : Option ℕ :=
  match candidate.reverse.findIdx? fun c => c == ' ' || c == '\n' with
  | some back => some (candidate.length - 1 - back)
  | none => none

/-- The source's last step: back to the boundary, when that is beyond the middle; at the other end
on to what follows the first white space. -/
def Keep.backOff (keep : Keep) (candidate : List Char) : List Char :=
  match keep with
  | .head =>
      match lastBoundary candidate with
      | some boundary =>
          if boundary > candidate.length / 2 then candidate.take boundary else candidate
      | none => candidate
  | .tail =>
      match candidate.findIdx? isSpace with
      | some boundary => candidate.drop (boundary + 1)
      | none => candidate

/-- The source's `truncate_text_to_tokens`. -/
def truncateTextToTokens (count : List Char → ℕ) (keep : Keep) (target : ℤ)
    (text : List Char) : List Char :=
  if target ≤ 0 then []
  else if count text ≤ target then text
  else
    let length := searchLength (fun mid => count (keep.slice text mid) ≤ target)
      text.length 0 text.length
    keep.backOff (keep.slice text length)

/-- The matches of the estimator's pattern. -/
def countMatches (py : PythonStrings) (text : List Char) : ℕ :=
  regexCountText py.toPythonText (String.ofList text)

/-- The source's `_boundary_truncate`. -/
def boundaryTruncate (py : PythonStrings) (keep : Keep) (target : ℤ) (text : List Char) :
    List Char :=
  truncateTextToTokens (countMatches py) keep target text

end Host

/-! ### The shared ids -/

/-- The text algorithms that the kernel and the catalog both have without scoring. -/
inductive TextAlgorithm
  | normalizeWhitespace
  | deduplicateBlocks
  | boundaryTruncate
deriving DecidableEq, Repr

/-- The id of an algorithm. -/
def TextAlgorithm.algorithmId : TextAlgorithm → String
  | .normalizeWhitespace => "builtin.text.normalize_whitespace.v1"
  | .deduplicateBlocks => "builtin.text.deduplicate_blocks.v1"
  | .boundaryTruncate => "builtin.text.boundary_truncate.v1"

/-- What the catalog's function of an algorithm returns with the default options. -/
def Host.candidate (py : PythonStrings) (target : ℤ) (text : String) : TextAlgorithm → String
  | .normalizeWhitespace => String.ofList (Host.normalizeWhitespace true text.toList)
  | .deduplicateBlocks => String.ofList (Host.deduplicateBlocks py text.toList)
  | .boundaryTruncate => String.ofList (Host.boundaryTruncate py .head target text.toList)

end ContextLease
