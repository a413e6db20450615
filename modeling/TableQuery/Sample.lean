import TableQuery.Evaluation.Database

/-!
# The sample shop

Three small tables to try queries on: orders and reviews, both of which point at
products.
-/

namespace TableQuery.Sample

/-! ## Tables and fields -/

def orders : TableId := 1
def products : TableId := 2
def reviews : TableId := 3

namespace Order

def id : FieldId := 100
def product : FieldId := 101
def subtotal : FieldId := 102
def tax : FieldId := 103
def total : FieldId := 104
def discount : FieldId := 105
def createdAt : FieldId := 106
def quantity : FieldId := 107

end Order

namespace Product

def id : FieldId := 200
def title : FieldId := 201
def category : FieldId := 202
def price : FieldId := 203
def rating : FieldId := 204

end Product

namespace Review

def id : FieldId := 300
def product : FieldId := 301
def reviewer : FieldId := 302
def rating : FieldId := 303
def body : FieldId := 304
def createdAt : FieldId := 305

end Review

def reference (id : FieldId) (column : String) (target : TableId) : FieldInfo :=
  { FieldInfo.ofColumn id column .numeric with target := some target }

def ordersTable : TableInfo where
  id := orders
  name := "Orders"
  fields := [
    .ofColumn Order.id "id" .numeric,
    reference Order.product "product_id" products,
    .ofColumn Order.subtotal "subtotal" .numeric,
    .ofColumn Order.tax "tax" .numeric,
    .ofColumn Order.total "total" .numeric,
    .ofColumn Order.discount "discount" .numeric,
    .ofColumn Order.createdAt "created_at" (.temporal .dateTime),
    .ofColumn Order.quantity "quantity" .numeric]

def productsTable : TableInfo where
  id := products
  name := "Products"
  fields := [
    .ofColumn Product.id "id" .numeric,
    .ofColumn Product.title "title" .text,
    .ofColumn Product.category "category" .text,
    .ofColumn Product.price "price" .numeric,
    .ofColumn Product.rating "rating" .numeric]

def reviewsTable : TableInfo where
  id := reviews
  name := "Reviews"
  fields := [
    .ofColumn Review.id "id" .numeric,
    reference Review.product "product_id" products,
    .ofColumn Review.reviewer "reviewer" .text,
    .ofColumn Review.rating "rating" .numeric,
    .ofColumn Review.body "body" .text,
    .ofColumn Review.createdAt "created_at" (.temporal .date)]

def catalog : Catalog := ⟨[ordersTable, productsTable, reviewsTable]⟩

/-! ## Rows -/

def fixed (scale n : Nat) : Cell :=
  .number ((Decimal.ofParts? false n scale).getD .zero)

def money (cents : Nat) : Cell := fixed 2 cents

def orderRow (id product subtotal tax total : Nat) (discount : Option Nat)
    (createdAt : String) (quantity : Nat) : Record :=
  [(Order.id, .ofCount id), (Order.product, .ofCount product),
    (Order.subtotal, money subtotal), (Order.tax, money tax),
    (Order.total, money total),
    (Order.discount, (discount.map money).getD .null),
    (Order.createdAt, .temporal createdAt), (Order.quantity, .ofCount quantity)]

def ordersData : TableData where
  primaryKey := some Order.id
  rows := [
    orderRow 1 1 3765 207 3972 none "2024-01-05T10:33:00" 2,
    orderRow 2 2 11093 610 11703 (some 642) "2024-01-17T19:12:45" 3,
    orderRow 3 3 5272 290 5562 none "2024-02-02T08:05:10" 1,
    orderRow 4 1 10922 601 11523 none "2024-02-14T14:48:00" 4,
    orderRow 5 4 28675 1573 30248 (some 1000) "2024-03-09T21:17:31" 5,
    orderRow 6 2 9882 544 10426 none "2024-03-21T11:02:19" 2,
    orderRow 7 5 7399 407 7806 (some 350) "2024-04-03T16:40:00" 1,
    orderRow 8 3 14823 815 15638 none "2024-04-28T09:15:44" 6,
    orderRow 9 4 2946 162 3108 none "2024-05-11T23:59:59" 1,
    orderRow 10 5 14400 792 15192 none "2024-05-30T07:30:00" 3]

def productRow (id : Nat) (title category : String) (price rating : Nat) :
    Record :=
  [(Product.id, .ofCount id), (Product.title, .string title),
    (Product.category, .string category), (Product.price, money price),
    (Product.rating, fixed 1 rating)]

def productsData : TableData where
  primaryKey := some Product.id
  rows := [
    productRow 1 "Rustic Paper Wallet" "Gizmo" 2946 46,
    productRow 2 "Small Marble Shoes" "Doohickey" 7008 40,
    productRow 3 "Synergistic Granite Chair" "Doohickey" 3539 40,
    productRow 4 "Enormous Aluminum Shirt" "Widget" 5734 34,
    productRow 5 "Heavy-Duty Silk Chair" "Gadget" 7399 33]

def reviewRow (id product : Nat) (reviewer : String) (rating : Nat)
    (body createdAt : String) : Record :=
  [(Review.id, .ofCount id), (Review.product, .ofCount product),
    (Review.reviewer, .string reviewer), (Review.rating, .ofCount rating),
    (Review.body, .string body), (Review.createdAt, .temporal createdAt)]

def reviewsData : TableData where
  primaryKey := some Review.id
  rows := [
    reviewRow 1 1 "christ" 5 "Ad perspiciatis quis et consectetur."
      "2024-02-01",
    reviewRow 2 1 "xavier" 4 "Reprehenderit sit ut eos." "2024-03-14",
    reviewRow 3 2 "cameron.nitzsche" 3 "Sed quod in ea." "2024-03-20",
    reviewRow 4 3 "barbara-shields" 5 "Voluptas qui aut molestiae."
      "2024-04-02",
    reviewRow 5 4 "christ" 2 "" "2024-05-19"]

def database : Database where
  catalog := catalog
  tables :=
    [(orders, ordersData), (products, productsData), (reviews, reviewsData)]

end TableQuery.Sample
