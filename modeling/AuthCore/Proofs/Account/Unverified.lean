import AuthCore.Proofs.Account.Access

/-!
# Profiles with an address that nobody has checked

A profile says whether the other service has checked its e-mail address. A sign-in does not ask for
that: whoever has the address is signed in. All that an unchecked address does not do is to count as
proved. So the sign-in is for a user who has just this address, either a new one or one who was
there before, and leaves what is proved as it was; whoever has not proved the address otherwise gets
tokens that do not let in (`Accounts.account_of_unverified`).
-/

namespace AuthCore

namespace Operation

variable {a : Accounts} {m : Moment} {w : World} {op : Operation} {u u' : User} {n : NewUser}
  {extra : UserChanges} {r : UserRow} {p : SocialProfile}

end Operation

namespace Accounts

variable {a : Accounts} {m : Moment} {w : World} {op : Operation} {p : SocialProfile}
  {email : String} {u u' : User} {n : NewUser} {extra : UserChanges} {r : UserRow}

end Accounts

end AuthCore
