import Consignment.Digest.Sha256

/-! Keys of published messages. The broker keeps messages of one key in order, so a shipment's key
must depend on its id alone. -/
namespace Consignment

def messageKey (id : String) : String := Text.hex (Digest.sha256 (Text.utf8 id))

end Consignment
