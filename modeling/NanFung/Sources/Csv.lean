import NanFung.Store.Throttle

/-!
# Rows of a CSV

A row of `csv.DictReader` has the cells of a header, keyed by its names as they are written. Where two
columns have one name the last one counts, and the cell of a row that is too short is absent.
-/

namespace NanFung

/-- `row.get(name)` -/
def rowGet (name : String) : List String → List String → Option String
  | [], _ => none
  | column :: header, row =>
    if name ∈ header then rowGet name header row.tail
    else if column = name then row.head? else none

/-- `(row.get(name) or "").strip()` -/
def cellText (name : String) (header row : List String) : List Char :=
  strip ((rowGet name header row).getD "").toList

/-- `field.strip()` of a name of the header. -/
def stripName (name : String) : String := String.ofList (strip name.toList)

variable {name : String} {header row : List String}

/-- A column whose name is in no other place is found under it. -/
theorem rowGet_map {f : String → String} (h : ∀ column ∈ header, f column = name ↔ column = name) :
    rowGet name (header.map f) row = rowGet name header row := by
  induction header generalizing row with
  | nil => rfl
  | cons column header ih =>
    obtain ⟨hcolumn, hheader⟩ := List.forall_mem_cons.mp h
    have hmem : name ∈ header.map f ↔ name ∈ header := by
      rw [List.mem_map]
      constructor
      · rintro ⟨c, hc, heq⟩
        rwa [← (hheader c hc).mp heq]
      · exact fun hname => ⟨name, hname, (hheader name hname).mpr rfl⟩
    rw [List.map_cons, rowGet, rowGet, ih hheader]
    simp only [hmem, hcolumn]

end NanFung
