import Gopher.Lib.Json.Reads

-- Documents written with a blank behind each colon and comma.

namespace Gopher.Lib.JsonDoc

variable {quoting : Quoting}

-- Quoted texts with commas between them.
def listed : List Text → Text
  | [] => []
  | name :: names => quoted name ++ (names.map fun name => ", ".toList ++ quoted name).flatten

-- A member of an object: its name, the text of its value and the value.
structure Part where
  name : Text
  text : Text
  value : JsonDoc

def Part.written (part : Part) : Text := quoted part.name ++ ": ".toList ++ part.text

structure Part.Sound (quoting : Quoting) (part : Part) : Prop where
  name_plain : ∀ char ∈ part.name, quoting.plain char = true
  takes : Takes quoting part.text part.value

theorem takesElements_listed {blanks name : Text} {names : List Text}
    (hblanks : ∀ char ∈ blanks, isBlank char = true)
    (hplain : ∀ text ∈ name :: names, ∀ char ∈ text, quoting.plain char = true) :
    TakesElements quoting (blanks ++ listed (name :: names) ++ [']'])
      ((name :: names).map .string) := by
  induction names generalizing blanks name with
  | nil =>
      have hvalue := (takes_quoted (hplain name (by simp))).pad_left hblanks
      simpa [listed] using takesElements_last hvalue
  | cons next names ih =>
      have hvalue := (takes_quoted (hplain name (by simp))).pad_left hblanks
      have hrest := @ih [' '] next isBlank_of_mem_space
        (fun text htext => hplain text (List.mem_cons_of_mem _ htext))
      simpa [listed] using takesElements_cons hvalue hrest

theorem takes_listed {names : List Text}
    (hplain : ∀ text ∈ names, ∀ char ∈ text, quoting.plain char = true) :
    Takes quoting ('[' :: (listed names ++ [']'])) (.array (names.map .string)) := by
  cases names with
  | nil => exact takes_emptyArray isBlank_of_mem_nil
  | cons name names =>
      have h := takesElements_listed isBlank_of_mem_nil hplain
      rw [List.nil_append] at h
      exact takes_array h

theorem takesMembers_parts {blanks : Text} {part : Part} {parts : List Part}
    (hblanks : ∀ char ∈ blanks, isBlank char = true)
    (hsound : ∀ one ∈ part :: parts, one.Sound quoting) :
    TakesMembers quoting (blanks ++ part.written ++
      (parts.map fun part => ", ".toList ++ part.written).flatten ++ ['\x7d'])
      ((part :: parts).map fun part => (part.name, part.value)) := by
  induction parts generalizing blanks part with
  | nil =>
      have hpart := hsound part (by simp)
      have h := takesMembers_last (takesName_verbatim hblanks hpart.name_plain)
        (hpart.takes.pad_left isBlank_of_mem_space)
      simpa [Part.written, quoted] using h
  | cons next parts ih =>
      have hpart := hsound part (by simp)
      have hrest := @ih [' '] next isBlank_of_mem_space
        (fun one hone => hsound one (List.mem_cons_of_mem _ hone))
      have h := takesMembers_cons (takesName_verbatim hblanks hpart.name_plain)
        (hpart.takes.pad_left isBlank_of_mem_space) hrest
      simpa [Part.written, quoted] using h

theorem readDocument_parts {part : Part} {parts : List Part}
    (hsound : ∀ one ∈ part :: parts, one.Sound quoting) :
    readDocument quoting ('\x7b' :: (part.written ++
      (parts.map fun part => ", ".toList ++ part.written).flatten ++ ['\x7d'])) =
      some (.object ((part :: parts).map fun part => (part.name, part.value))) := by
  have h := takesMembers_parts isBlank_of_mem_nil hsound
  rw [List.nil_append] at h
  exact readDocument_of_takes (takes_object h)

end Gopher.Lib.JsonDoc
