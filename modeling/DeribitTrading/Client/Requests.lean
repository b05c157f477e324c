import DeribitTrading.Library.Numbers

/-!
The URLs of the requests. Every builder concatenates its arguments as they are.
-/
namespace DeribitTrading
open ByteString Numbers

def placeOrderUrl (instrument : Bytes) (quantity price : Double) (label orderType : Bytes) :
    Bytes :=
  let url := bytes "https://test.deribit.com/api/v2/private/buy?amount=" ++ quantity.toString ++
    bytes "&instrument_name=" ++ instrument ++ bytes "&label=" ++ label ++
    bytes "&type=" ++ orderType
  if orderType = bytes "limit" then url ++ (bytes "&price=" ++ price.toString) else url

def cancelOrderUrl (orderId : Bytes) : Bytes :=
  bytes "https://test.deribit.com/api/v2/private/cancel?order_id=" ++ orderId

def modifyOrderUrl (orderId : Bytes) (newPrice amount : Double) : Bytes :=
  bytes "https://test.deribit.com/api/v2/private/edit?order_id=" ++ orderId ++
    bytes "&price=" ++ newPrice.toString ++ bytes "&amount=" ++ amount.toString

/-- `getOrderBookData` of the client and `getOrderBook` of the server build the same URL. -/
def orderBookUrl (symbol : Bytes) : Bytes :=
  bytes "https://test.deribit.com/api/v2/public/get_order_book?instrument_name=" ++ symbol

end DeribitTrading
