import Consignment.Json.Record
import Consignment.Json.Writer
import Consignment.Shipment.Basic
import Consignment.Timestamp.Parser
import Consignment.Transaction.Basic

/-! Shipments, their lines and transactions as JSON documents. -/
namespace Consignment

open Json (Member Reader)

def Timestamp.reader : Reader Timestamp :=
  .meaning "an RFC 3339 formatted date and time string" fun t =>
    (Timestamp.parse t).mapError .timestamp

def Status.reader : Reader Status := .variant Status.named

def Flow.reader : Reader Flow := .variant Flow.named

namespace Line

def members : List (Member Line) :=
  [.of "sku" Reader.text.orNull fun v l => { l with sku := v },
   .of "quantity" Reader.integer.orNull fun v l => { l with quantity := v }]

def reader : Reader Line := .record "struct ShipmentLine" members blank

def write (l : Line) : Bytes :=
  Json.writeObject
    [("sku", Json.writeOption Json.writeText l.sku),
     ("quantity", Json.writeOption Json.writeInteger l.quantity)]

end Line

namespace Shipment

def attributesReader : Reader (Register (Option String)) :=
  (Reader.entries Reader.text.orNull).map .ofList

def members : List (Member Shipment) :=
  [.of "id" Reader.text.orNull fun v s => { s with id := v },
   .of "status" Status.reader.orNull fun v s => { s with status := v },
   .of "product_id" Reader.text.orNull fun v s => { s with productId := v },
   .of "quantity" Reader.integer.orNull fun v s => { s with quantity := v },
   .of "origin" Reader.text.orNull fun v s => { s with origin := v },
   .of "destination" Reader.text.orNull fun v s => { s with destination := v },
   .of "lines" Line.reader.list fun v s => { s with lines := v },
   .of "attributes" attributesReader fun v s => { s with attributes := v },
   .of "updated_at" Timestamp.reader.orNull fun v s => { s with updatedAt := v }]

def reader : Reader Shipment := .record "struct Shipment" members blank

def ofDocument (doc : Bytes) : Except Json.Fault Shipment := reader.document doc

/-- Lines and attributes are left out when there are none. -/
def write (s : Shipment) : Bytes :=
  Json.writeObject <|
    [("id", Json.writeOption Json.writeText s.id),
     ("status", Json.writeOption Json.writeText (s.status.map Status.name)),
     ("product_id", Json.writeOption Json.writeText s.productId),
     ("quantity", Json.writeOption Json.writeInteger s.quantity),
     ("origin", Json.writeOption Json.writeText s.origin),
     ("destination", Json.writeOption Json.writeText s.destination)]
    ++ (if s.lines.isEmpty then [] else [("lines", Json.writeList (s.lines.map Line.write))])
    ++ (if s.attributes.isEmpty then []
        else [("attributes", Json.writeObject
          (s.attributes.entries.map fun e => (e.1, Json.writeOption Json.writeText e.2)))])
    ++ [("updated_at", Json.writeOption Json.writeText (s.updatedAt.map Timestamp.text))]

end Shipment

namespace Transaction

def members : List (Member Transaction) :=
  [.of "id" Reader.text.orNull fun v t => { t with id := v },
   .of "purpose" Reader.text.orNull fun v t => { t with purpose := v },
   .of "flow" Flow.reader.orNull fun v t => { t with flow := v },
   .of "amount" Reader.integer.orNull fun v t => { t with amount := v },
   .of "currency" Reader.text.orNull fun v t => { t with currency := v },
   .of "beneficiary" Reader.text.orNull fun v t => { t with beneficiary := v },
   .of "provider" Reader.text.orNull fun v t => { t with provider := v },
   .of "created_at" Timestamp.reader.orNull fun v t => { t with createdAt := v }]

def reader : Reader Transaction := .record "struct Transaction" members blank

def write (t : Transaction) : Bytes :=
  Json.writeObject
    [("id", Json.writeOption Json.writeText t.id),
     ("purpose", Json.writeOption Json.writeText t.purpose),
     ("flow", Json.writeOption Json.writeText (t.flow.map Flow.name)),
     ("amount", Json.writeOption Json.writeInteger t.amount),
     ("currency", Json.writeOption Json.writeText t.currency),
     ("beneficiary", Json.writeOption Json.writeText t.beneficiary),
     ("provider", Json.writeOption Json.writeText t.provider),
     ("created_at", Json.writeOption Json.writeText (t.createdAt.map Timestamp.text))]

end Transaction
end Consignment
