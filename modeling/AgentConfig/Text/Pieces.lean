namespace AgentConfig.Text

/-- The pieces of a list between the occurrences of a mark, one more of them than marks. -/
def pieces {α : Type} [DecidableEq α] (mark : α) : List α → List (List α)
  | [] => [[]]
  | c :: rest =>
    if c = mark then [] :: pieces mark rest
    else
      match pieces mark rest with
      | [] => [[c]]
      | first :: others => (c :: first) :: others

/-- The part of a list before the first occurrence of a mark and the part after it. -/
def divide? {α : Type} [DecidableEq α] (mark : α) : List α → Option (List α × List α)
  | [] => none
  | c :: rest =>
    if c = mark then some ([], rest)
    else (divide? mark rest).map fun (before, after) => (c :: before, after)

end AgentConfig.Text
