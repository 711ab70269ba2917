import Mathlib.Data.List.Basic

namespace Foundation

-- A machine takes requests. It says which answers each of them may get, and where it is then.
abbrev Machine (σ ρ α : Type*) := σ → ρ → α → σ → Prop

namespace Machine

variable {σ τ ρ α : Type*}

variable {serve : σ → ρ → α × σ} {M : Machine τ ρ α} {R : σ → τ → Prop} {guard : ρ → Prop} {s : σ}
  {t : τ} {rs : List ρ}

end Machine

end Foundation
