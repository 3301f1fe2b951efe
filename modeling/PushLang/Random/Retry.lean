namespace PushLang

variable {ρ α : Type}

/-- The first good result of at most some attempts. What an attempt draws is spent even if its
result is not good. -/
def retry (attempt : ρ → α × ρ) (good : α → Bool) : Nat → ρ → Option α × ρ
  | 0, source => (none, source)
  | tries + 1, source =>
    let (result, source) := attempt source
    if good result then (some result, source) else retry attempt good tries source

end PushLang
