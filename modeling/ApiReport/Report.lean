import ApiReport.Calendar.Zone
import ApiReport.Text.Pieces

/-!
# Reports

What all reports have in common: a title, a line that tells when the report was generated, and a
preamble on headers and responses. Two reports are the same if they differ at most in that line.

Key definitions: `Report.stampLine`, `Report.header`, `Report.preamble`, `Report.withoutStamp`,
`Report.same`, `Report.text`.
-/
namespace ApiReport.Report

/-- How the line starts that tells when a report was generated. -/
def stampStart : String := "Generated: "

/-- The line that tells when a report was generated. -/
def stampLine (instant : Option Int) (zone : Option String) : String :=
  stampStart ++ Calendar.stamp instant zone

/-- The first lines of a report. -/
def header (title : String) (instant : Option Int) (zone : Option String) : List String :=
  ["# " ++ title, stampLine instant zone, ""]

/-- The headers that every request needs. -/
def requiredHeaders : List String := [
  "X-Correlation-Id (ULID, required)",
  "X-Transaction-Id (ULID, required)",
  "X-Request-Id (ULID, required)",
  "Accept: application/json",
  "Authorization: Bearer <token> (required for protected endpoints)"]

/-- The fields of the envelope around every response. -/
def envelopeFields : List String := [
  "success: boolean",
  "message: string",
  "data: object|array|null",
  "meta: object (timestamp, api_version, locale, pagination if applicable)",
  "trace: object (correlation_id, transaction_id, request_id)"]

def bullet (s : String) : String := "- " ++ s

/-- What every report says about requests and responses. -/
def preamble : List String :=
  ["## Required Headers"] ++ requiredHeaders.map bullet ++
    ["", "## Standard Response Envelope"] ++ envelopeFields.map bullet ++ [""]

/-- Whether a line tells when a report was generated. -/
def isStampLine (line : List Char) : Bool := stampStart.toList.isPrefixOf line

/-- Lines without the second one if it tells when the report was generated. -/
def dropStamp : List (List Char) → List (List Char)
  | title :: second :: rest => if isStampLine second then title :: rest else title :: second :: rest
  | ls => ls

/-- A report without the line that tells when it was generated. -/
def withoutStamp (report : String) : String :=
  String.ofList (Text.join '\n' (dropStamp (Text.pieces '\n' report.toList)))

/-- Whether two reports differ at most in when they were generated. -/
def same (a b : String) : Bool := withoutStamp a = withoutStamp b

/-- The text of a report with the given lines. -/
def text (lines : List String) : String := "\n".intercalate lines

end ApiReport.Report
